import DocSite.Proofs.Yaml.Token

/-!
The tokens of a written document. Every tree becomes the tokens of its parts between those of its
container; what stands below it at a smaller indentation closes it.
-/

namespace DocSite.Yaml

mutual

def Tree.tokens : Tree → List Token
  | .text s => [.ofText s]
  | .bool b => [.scalar (if b then "true" else "false") true]
  | .sequence items =>
    if items.isEmpty then [.flowSequenceStart, .flowSequenceEnd]
    else .sequenceStart :: itemTokens items ++ [.blockEnd]
  | .mapping entries =>
    if entries.isEmpty then [.flowMappingStart, .flowMappingEnd]
    else .mappingStart :: entryTokens entries ++ [.blockEnd]

def itemTokens : List Tree → List Token
  | [] => []
  | item :: r => .entry :: item.tokens ++ itemTokens r

def entryTokens : List (String × Tree) → List Token
  | [] => []
  | (key, v) :: r => .key :: .ofText key :: .value :: v.tokens ++ entryTokens r

end

/-- A tree of some depth whose texts and keys come back: no key stands twice, and none is taken for
the one that merges mappings. -/
inductive Tree.Carried : Nat → Tree → Prop
  | text {d : Nat} {s : String} : keepsText s → Carried d (.text s)
  | bool {d : Nat} {b : Bool} : Carried d (.bool b)
  | sequence {d : Nat} {items : List Tree} : (∀ t ∈ items, Carried d t) →
    Carried (d + 1) (.sequence items)
  | mapping {d : Nat} {entries : List (String × Tree)} :
    (∀ e ∈ entries, keepsText e.1 ∧ e.1 ≠ "<<") → (entries.map Prod.fst).Nodup →
    (∀ e ∈ entries, Carried d e.2) → Carried (d + 1) (.mapping entries)

section Written

def Starts (written : List Char) : Prop :=
  ∃ x r, written = x :: r ∧ isGapChar x = false ∧ x ≠ '#' ∧ x ≠ '\uFEFF'

theorem Starts.append {a : List Char} (h : Starts a) (b : List Char) : Starts (a ++ b) := by
  obtain ⟨x, r, rfl, hx⟩ := h
  exact ⟨x, r ++ b, rfl, hx⟩

theorem Starts.ne_nil {a : List Char} (h : Starts a) : a ≠ [] := by
  obtain ⟨x, r, rfl, _⟩ := h
  simp

theorem Starts.opens {a : List Char} (h : Starts a) : Scanner.Opens a := by
  obtain ⟨x, r, rfl, hx, hcomment, _⟩ := h
  rintro _ ⟨⟩
  exact ⟨(Bool.or_eq_false_iff.mp hx).1, (Bool.or_eq_false_iff.mp hx).2, hcomment⟩

theorem lineEnd_append (a : List Char) {b : List Char} (h : b ≠ []) :
    lineEnd (a ++ b) = lineEnd b := by
  obtain ⟨x, r, rfl⟩ := List.exists_cons_of_ne_nil h
  simp [lineEnd, List.getLast?_append, List.getLast?_cons]

theorem starts_stack {n : Nat} {block : List Char} (h : Starts block) (r : List (List Char)) :
    Starts (stack n (block :: r)) := by
  cases r with
  | nil => exact h
  | cons b r =>
    rw [stack, List.append_assoc, List.append_assoc]
    · exact h.append _
    · simp

theorem starts_entryText (n : Nat) (key : String) (isBlock : Bool) (value : List Char) :
    Starts (entryText n key isBlock value) := by
  rw [entryText]
  split
  · exact (show Starts _ from exists_writeText_eq_cons (n + 2) key).append _
  · exact ⟨'?', _, rfl, by decide, by decide, by decide⟩

theorem starts_writeTree (n : Nat) (t : Tree) : Starts (writeTree n t) := by
  cases t with
  | text s => exact exists_writeText_eq_cons n s
  | bool b => cases b <;> exact ⟨_, _, rfl, by decide, by decide, by decide⟩
  | sequence items =>
    cases items with
    | nil => exact ⟨_, _, rfl, by decide, by decide, by decide⟩
    | cons item r => exact starts_stack ⟨'-', _, rfl, by decide, by decide, by decide⟩ _
  | mapping entries =>
    cases entries with
    | nil => exact ⟨_, _, rfl, by decide, by decide, by decide⟩
    | cons e r => exact starts_stack (starts_entryText n e.1 _ _) _

theorem itemBlocks_eq (n : Nat) (items : List Tree) :
    itemBlocks n items = items.map fun t => '-' :: ' ' :: writeTree (n + 2) t := by
  induction items with
  | nil => rfl
  | cons t r ih => rw [itemBlocks, ih, List.map_cons]

theorem entryBlocks_eq (n : Nat) (entries : List (String × Tree)) :
    entryBlocks n entries =
      entries.map fun e => entryText n e.1 e.2.isBlock (writeTree (n + 2) e.2) := by
  induction entries with
  | nil => rfl
  | cons e r ih => rw [entryBlocks, ih, List.map_cons]

theorem itemTokens_eq (items : List Tree) :
    itemTokens items = items.flatMap fun t => .entry :: t.tokens := by
  induction items with
  | nil => rfl
  | cons t r ih => rw [itemTokens, ih, List.flatMap_cons]

theorem entryTokens_eq (entries : List (String × Tree)) :
    entryTokens entries =
      entries.flatMap fun e => .key :: .ofText e.1 :: .value :: e.2.tokens := by
  induction entries with
  | nil => rfl
  | cons e r ih => rw [entryTokens, ih, List.flatMap_cons]

@[simp] theorem all_isReadable_lineEnd (written : List Char) :
    (lineEnd written).all isReadable := by
  rw [lineEnd]
  split <;> rfl

@[simp] theorem all_isReadable_spaces (n : Nat) : (spaces n).all isReadable := by
  rw [List.all_eq_true]
  intro x hx
  rw [List.eq_of_mem_replicate hx]
  rfl

theorem all_isReadable_stack {n : Nat} {blocks : List (List Char)}
    (h : ∀ b ∈ blocks, b.all isReadable) : (stack n blocks).all isReadable := by
  induction blocks with
  | nil => rfl
  | cons b r ih =>
    rw [List.forall_mem_cons] at h
    cases r with
    | nil => exact h.1
    | cons b' r =>
      have htext : stack n (b :: b' :: r) = b ++ lineEnd b ++ spaces n ++ stack n (b' :: r) := rfl
      rw [htext, List.all_append, List.all_append, List.all_append, h.1, ih h.2,
        all_isReadable_lineEnd, all_isReadable_spaces]
      rfl

theorem all_isReadable_entryText (n : Nat) (key : String) (isBlock : Bool) {value : List Char}
    (h : value.all isReadable) : (entryText n key isBlock value).all isReadable := by
  have hkey : (writeText (n + 2) key).all isReadable :=
    List.all_eq_true.mpr fun x hx => isReadable_writeText hx
  have hsigns : isReadable ':' ∧ isReadable ' ' ∧ isReadable '?' ∧ isReadable '\n' := by decide
  rw [entryText]
  split <;> split <;> simp [hkey, h, hsigns]

theorem all_isReadable_writeTree {d : Nat} {t : Tree} (h : t.Carried d) (n : Nat) :
    (writeTree n t).all isReadable := by
  induction h generalizing n with
  | text => exact List.all_eq_true.mpr fun x hx => isReadable_writeText hx
  | @bool _ b => cases b <;> rfl
  | @sequence _ items _ ih =>
    rw [writeTree, itemBlocks_eq]
    split
    · rfl
    · refine all_isReadable_stack (List.forall_mem_map.mpr fun t ht => ?_)
      exact ih t ht (n + 2)
  | @mapping _ entries _ _ _ ih =>
    rw [writeTree, entryBlocks_eq]
    split
    · rfl
    · refine all_isReadable_stack (List.forall_mem_map.mpr fun e he => ?_)
      exact all_isReadable_entryText n e.1 _ (ih e he (n + 2))

end Written

namespace Scanner

/-- A block at a column becomes tokens, in a container that the first such block opens. -/
def Adds (n d : Nat) (container : Token) (block : List Char) (tokens : List Token) : Prop :=
  ∀ ⦃s : Scanner⦄ ⦃before : List Token⦄ ⦃around : List Nat⦄ ⦃m : Nat⦄ ⦃rest : List Char⦄,
    s.At (block ++ lineEnd block ++ (spaces m ++ rest)) n before around true → CanOpen n around →
    (within n around).length + d ≤ depthLimit → m ≤ n → Opens rest →
    ∃ s', Steps s s' ∧
      s'.At rest m (closed m (within n around) (tokens.reverse ++ opened n container around before))
        (kept m (within n around)) true

def Scans (d : Nat) (t : Tree) : Prop :=
  ∀ ⦃s : Scanner⦄ ⦃col i : Nat⦄ ⦃before : List Token⦄ ⦃I : List Nat⦄ ⦃allowed : Bool⦄ ⦃m : Nat⦄
    ⦃rest : List Char⦄,
    s.At (writeTree (i + 2) t ++ lineEnd (writeTree (i + 2) t) ++ (spaces m ++ rest)) col before
      (i :: I) allowed → i < col → (t.isBlock → col = i + 2 ∧ allowed = true) →
    (i :: I).length + d ≤ depthLimit → m ≤ i → Opens rest →
    ∃ s', Steps s s' ∧
      s'.At rest m (closed m (i :: I) (t.tokens.reverse ++ before)) (kept m (i :: I)) true

variable {n d : Nat} {container : Token}

theorem adds_stack {blocks : List (List Char × List Token)} (hne : blocks ≠ [])
    (h : ∀ b ∈ blocks, Starts b.1 ∧ Adds n d container b.1 b.2) :
    Adds n d container (stack n (blocks.map Prod.fst)) (blocks.flatMap Prod.snd) := by
  induction blocks with
  | nil => exact absurd rfl hne
  | cons b r ih =>
    obtain ⟨⟨hstart, hb⟩, hr⟩ := List.forall_mem_cons.mp h
    cases r with
    | nil =>
      simp only [List.map_cons, List.map_nil, stack, List.flatMap_cons, List.flatMap_nil,
        List.append_nil]
      exact hb
    | cons b' r =>
      intro s before around m rest hat haround hdepth hm hrest
      have ih := ih (by simp) hr
      have hrestStarts : Starts (stack n ((b' :: r).map Prod.fst)) :=
        starts_stack (hr b' (by simp)).1 _
      have htext : stack n ((b :: b' :: r).map Prod.fst) =
          b.1 ++ lineEnd b.1 ++ spaces n ++ stack n ((b' :: r).map Prod.fst) := rfl
      rw [htext, lineEnd_append _ hrestStarts.ne_nil] at hat
      generalize stack n ((b' :: r).map Prod.fst) = written at hat ih hrestStarts
      have hopens : Opens (written ++ lineEnd written ++ (spaces m ++ rest)) :=
        ((hrestStarts.append _).append _).opens
      obtain ⟨s₁, hsteps₁, hat₁⟩ := hb (by simpa [List.append_assoc] using hat) haround hdepth
        (Nat.le_refl n) hopens
      obtain ⟨I, hI⟩ := exists_within_eq_cons n around
      have hle : ∀ i ∈ (n :: I).head?, i ≤ n := by simp
      rw [hI] at hat₁ hdepth ⊢
      rw [closed_eq_self hle, kept_eq_self hle] at hat₁
      obtain ⟨s₂, hsteps₂, hat₂⟩ := ih hat₁ (.inl rfl) (by simpa using hdepth) hm hrest
      rw [within_cons_self, opened_cons_self, ← List.append_assoc, ← List.reverse_append] at hat₂
      exact ⟨s₂, hsteps₁.trans hsteps₂, hat₂⟩

theorem adds_item {t : Tree} (h : Scans d t) (n : Nat) :
    Adds n d .sequenceStart ('-' :: ' ' :: writeTree (n + 2) t) (.entry :: t.tokens) := by
  intro s before around m rest hat haround hdepth hm hrest
  have hstarts := starts_writeTree (n + 2) t
  have hend : lineEnd ('-' :: ' ' :: writeTree (n + 2) t) = lineEnd (writeTree (n + 2) t) :=
    lineEnd_append ['-', ' '] hstarts.ne_nil
  rw [hend] at hat
  obtain ⟨s₁, hsteps₁, hat₁⟩ := At.dash hat ((hstarts.append _).append _).opens haround
  obtain ⟨I, hI⟩ := exists_within_eq_cons n around
  rw [hI] at hat₁ hdepth ⊢
  obtain ⟨s₂, hsteps₂, hat₂⟩ := h hat₁ (by omega) (fun _ => ⟨rfl, rfl⟩) hdepth hm hrest
  exact ⟨s₂, hsteps₁.trans hsteps₂, by simpa using hat₂⟩

def keyText (n : Nat) (key : String) : List Char :=
  if isSimpleKey key then writeText (n + 2) key ++ [':']
  else '?' :: ' ' :: writeText (n + 2) key ++ lineEnd (writeText (n + 2) key) ++ spaces n ++ [':']

def valueText (n : Nat) (t : Tree) : List Char :=
  (if t.isBlock then '\n' :: spaces (n + 2) else [' ']) ++ writeTree (n + 2) t

theorem entryText_eq (n : Nat) (key : String) (t : Tree) :
    entryText n key t.isBlock (writeTree (n + 2) t) = keyText n key ++ valueText n t := by
  have hvalue : (if t.isBlock then '\n' :: spaces (n + 2) ++ writeTree (n + 2) t
      else ' ' :: writeTree (n + 2) t) = valueText n t := by
    rw [valueText]
    split <;> rfl
  rw [entryText, hvalue, keyText]
  split <;> simp

theorem At.keyColon {s : Scanner} {key : String} {x : Char} {t : List Char} {before : List Token}
    {around : List Nat} (h : s.At (keyText n key ++ x :: t) n before around true)
    (hkey : keepsText key)
    (hx : isGapChar x) (ht : NoComment (x :: t)) (haround : CanOpen n around) :
    ∃ s', Steps s s' ∧ s'.After (x :: t) n
      (.value :: .ofText key :: .key :: opened n .mappingStart around before)
        (within n around) := by
  rw [keyText] at h
  split at h
  case isTrue hsimple =>
    rw [List.append_assoc] at h
    exact h.simpleKey (by omega) hsimple hx ht haround
  case isFalse =>
    have hcolon : Opens (':' :: x :: t) := by simp [Opens, isBlank, isBreak]
    have hstarts : Starts (writeText (n + 2) key) := exists_writeText_eq_cons (n + 2) key
    obtain ⟨s₁, hsteps₁, hat₁⟩ := At.mark
      (t := writeText (n + 2) key ++ lineEnd (writeText (n + 2) key) ++ (spaces n ++ ':' :: x :: t))
      (by simpa using h) ((hstarts.append _).append _).opens haround
    obtain ⟨I, hI⟩ := exists_within_eq_cons n around
    rw [hI] at hat₁ ⊢
    obtain ⟨s₂, hreads, hat₂⟩ := hat₁.ready.text_line hkey (by omega) (Nat.le_refl n) hcolon
    have hle : ∀ i ∈ (n :: I).head?, i ≤ n := by simp
    rw [closed_eq_self hle, kept_eq_self hle] at hat₂
    obtain ⟨s₃, hsteps₃, hafter⟩ := hat₂.markedColon hx ht
    exact ⟨s₃, (hsteps₁.trans (hat₁.steps hreads)).trans hsteps₃, hafter⟩

theorem Scans.value {t : Tree} (h : Scans d t) {s : Scanner} {m : Nat} {before : List Token}
    {I : List Nat} {rest : List Char}
    (hafter : s.After (valueText n t ++ lineEnd (writeTree (n + 2) t) ++ (spaces m ++ rest))
      n before (n :: I))
    (hdepth : (n :: I).length + d ≤ depthLimit) (hm : m ≤ n) (hrest : Opens rest) :
    ∃ s', Steps s s' ∧
      s'.At rest m (closed m (n :: I) (t.tokens.reverse ++ before)) (kept m (n :: I)) true := by
  have hopens := (((starts_writeTree (n + 2) t).append (lineEnd (writeTree (n + 2) t))).append
    (spaces m ++ rest)).opens
  rw [valueText, List.append_assoc, List.append_assoc,
    ← List.append_assoc (writeTree _ _)] at hafter
  split at hafter
  case isTrue hblock =>
    exact h (hafter.newLine hopens (by simp)) (by omega) (fun _ => ⟨rfl, rfl⟩) hdepth hm hrest
  case isFalse hblock =>
    obtain ⟨col, hcol, hat⟩ := hafter.inline hopens (by simp)
    exact h hat hcol (fun h => absurd h hblock) hdepth hm hrest

theorem exists_valueText_eq_cons (n : Nat) (t : Tree) :
    ∃ x v, valueText n t = x :: v ∧ isGapChar x ∧ ∀ r, NoComment (x :: (v ++ r)) := by
  rw [valueText]
  split
  · exact ⟨'\n', _, rfl, by decide, fun r => noComment_newLine _⟩
  · exact ⟨' ', _, rfl, by decide, fun r =>
      noComment_of_opens ((starts_writeTree (n + 2) t).append r).opens 1⟩

theorem adds_entry {t : Tree} (h : Scans d t) {key : String} (hkey : keepsText key) (n : Nat) :
    Adds n d .mappingStart (entryText n key t.isBlock (writeTree (n + 2) t))
      (.key :: .ofText key :: .value :: t.tokens) := by
  intro s before around m rest hat haround hdepth hm hrest
  have hend : lineEnd (keyText n key ++ valueText n t) = lineEnd (writeTree (n + 2) t) := by
    rw [valueText, ← List.append_assoc, lineEnd_append _ (starts_writeTree (n + 2) t).ne_nil]
  obtain ⟨I, hI⟩ := exists_within_eq_cons n around
  obtain ⟨x, v, hvalue, hx, hcomment⟩ := exists_valueText_eq_cons n t
  rw [entryText_eq, hend, hvalue] at hat
  obtain ⟨s₁, hsteps₁, hafter⟩ := At.keyColon
    (t := v ++ (lineEnd (writeTree (n + 2) t) ++ (spaces m ++ rest))) (by simpa using hat) hkey hx
    (hcomment _) haround
  rw [hI] at hafter hdepth ⊢
  rw [← List.cons_append, ← hvalue, ← List.append_assoc] at hafter
  obtain ⟨s₂, hsteps₂, hat₂⟩ := h.value hafter hdepth hm hrest
  exact ⟨s₂, hsteps₁.trans hsteps₂, by simpa using hat₂⟩

theorem plainText_bool (b : Bool) : PlainText (if b then "true" else "false").toList :=
  plainText_of_allowed (by cases b <;> decide) (by cases b <;> decide)

theorem scans_bool (b : Bool) : Scans d (.bool b) := by
  intro s col i before I allowed m rest hat hcol _ _ hm hrest
  have hwrite : writeTree (i + 2) (.bool b) = (if b then "true" else "false").toList := by
    cases b <;> rfl
  rw [hwrite, (plainText_bool b).lineEnd, List.append_assoc] at hat
  obtain ⟨s', hreads, hat'⟩ := hat.ready.plain_line (plainText_bool b) hcol hm hrest
  rw [String.ofList_toList] at hat'
  exact ⟨s', hat.steps hreads, hat'⟩

theorem scans_text {s : String} (h : keepsText s) : Scans d (.text s) := by
  intro _ col i before I allowed m rest hat hcol _ _ hm hrest
  obtain ⟨s', hreads, hat'⟩ := hat.ready.text_line h hcol hm hrest
  exact ⟨s', hat.steps hreads, hat'⟩

theorem closed_cons {m n : Nat} (h : m < n) (indents : List Nat) (tokens : List Token) :
    closed m (n :: indents) tokens = closed m indents (.blockEnd :: tokens) := by
  simp [closed, closeBlocks, h]

theorem kept_cons {m n : Nat} (h : m < n) (indents : List Nat) :
    kept m (n :: indents) = kept m indents := by
  simp [kept, h]

theorem scans_of_adds {t : Tree} {tokens : List Token} (hblock : t.isBlock)
    (htokens : t.tokens = container :: tokens ++ [.blockEnd])
    (h : ∀ n, Adds n d container (writeTree n t) tokens) : Scans (d + 1) t := by
  intro s col i before I allowed m rest hat hcol hblock' hdepth hm hrest
  obtain ⟨rfl, rfl⟩ := hblock' hblock
  have hhead : ∀ j ∈ (i :: I).head?, j < i + 2 := by simp
  have hne : (i :: I).head? ≠ some (i + 2) := by simp
  have hwithin : within (i + 2) (i :: I) = (i + 2) :: i :: I := by simp [within]
  have hopened : opened (i + 2) container (i :: I) before = container :: before := by simp [opened]
  obtain ⟨s', hsteps, hat'⟩ := h (i + 2) hat (.inr ⟨hhead, by omega⟩)
    (by rw [hwithin, List.length_cons]; omega) (by omega) hrest
  rw [hwithin, hopened, closed_cons (by omega), kept_cons (by omega)] at hat'
  exact ⟨s', hsteps, by simpa [htokens] using hat'⟩

theorem adds_sequence {items : List Tree} (hne : items ≠ []) (h : ∀ t ∈ items, Scans d t)
    (n : Nat) :
    Adds n d .sequenceStart (writeTree n (.sequence items)) (itemTokens items) := by
  have hwrite : writeTree n (.sequence items) = stack n (itemBlocks n items) := by
    simp [writeTree, hne]
  have := adds_stack (n := n) (d := d)
    (show items.map (fun t => ('-' :: ' ' :: writeTree (n + 2) t, Token.entry :: t.tokens)) ≠ [] by
      simpa using hne)
    (List.forall_mem_map.mpr fun t ht =>
      ⟨⟨'-', _, rfl, by decide, by decide, by decide⟩, adds_item (h t ht) n⟩)
  rw [List.map_map, List.flatMap_map] at this
  rw [hwrite, itemBlocks_eq, itemTokens_eq]
  exact this

theorem adds_mapping {entries : List (String × Tree)} (hne : entries ≠ [])
    (hkeys : ∀ e ∈ entries, keepsText e.1) (h : ∀ e ∈ entries, Scans d e.2) (n : Nat) :
    Adds n d .mappingStart (writeTree n (.mapping entries)) (entryTokens entries) := by
  have hwrite : writeTree n (.mapping entries) = stack n (entryBlocks n entries) := by
    simp [writeTree, hne]
  have := adds_stack (n := n) (d := d)
    (show entries.map (fun e => (entryText n e.1 e.2.isBlock (writeTree (n + 2) e.2),
        Token.key :: .ofText e.1 :: .value :: e.2.tokens)) ≠ [] by simpa using hne)
    (List.forall_mem_map.mpr fun e he =>
      ⟨starts_entryText n e.1 _ _, adds_entry (h e he) (hkeys e he) n⟩)
  rw [List.map_map, List.flatMap_map] at this
  rw [hwrite, entryBlocks_eq, entryTokens_eq]
  exact this

theorem scans_of_brackets {t : Tree} {o c : Char} {starts ends : Token}
    (hb : Brackets o c starts ends) (hwrite : ∀ n, writeTree n t = [o, c])
    (htokens : t.tokens = [starts, ends]) : Scans d t := by
  intro s col i before I allowed m rest hat hcol _ _ _ hrest
  have hend : lineEnd [o, c] = ['\n'] := by cases hb <;> rfl
  rw [hwrite, hend] at hat
  obtain ⟨s', hsteps, hat'⟩ := hat.brackets hb (by simp; omega) hrest
  exact ⟨s', hsteps, by simpa [htokens] using hat'⟩

theorem scans_of_carried {t : Tree} (h : t.Carried d) : Scans d t := by
  induction h with
  | text h => exact scans_text h
  | bool => exact scans_bool _
  | @sequence _ items _ ih =>
    by_cases hne : items = []
    · subst hne
      exact scans_of_brackets .sequence (fun _ => by simp [writeTree]) (by simp [Tree.tokens])
    · exact scans_of_adds (by simpa [Tree.isBlock] using hne) (by simp [Tree.tokens, hne])
        (adds_sequence hne ih)
  | @mapping _ entries hkeys _ _ ih =>
    by_cases hne : entries = []
    · subst hne
      exact scans_of_brackets .mapping (fun _ => by simp [writeTree]) (by simp [Tree.tokens])
    · exact scans_of_adds (by simpa [Tree.isBlock] using hne) (by simp [Tree.tokens, hne])
        (adds_mapping hne (fun e he => (hkeys e he).1) ih)

theorem at_start {text : List Char} (h : Opens text) : (start text).At text 0 [] [] true :=
  at_inline rfl (by rintro _ ⟨⟩) h (n := 0) rfl

theorem At.finish {s : Scanner} {before : List Token} {around : List Nat} {allowed : Bool}
    {col : Nat} (h : s.At [] col before around allowed) :
    ∃ s', s.step = some s' ∧ s'.tokens = .streamEnd :: closeBlocks around before := by
  have hflow : s.settle.inFlow = false := by simp [inFlow, h.ready.outer]
  have hact : s.settle.act = s.settle.finish := by
    rw [act, Cursor.peek?, h.ready.rest]
    rfl
  have hunroll : s.settle.unrollAll =
      { s.settle with tokens := closeBlocks around before, indents := [] } := by
    rw [unrollAll, hflow, h.ready.tokens, h.ready.indents]
    rfl
  have hdrop := dropKey_eq (a := s.settle.unrollAll) fun k hk => by
    rw [hunroll] at hk
    exact (h.ready.key k hk).1
  rw [step_eq, hact, Scanner.finish, hdrop]
  exact ⟨_, rfl, by rw [hunroll]; rfl⟩

theorem scanFrom_finish {s s' : Scanner} {tokens : List Token} (hstep : s.step = some s')
    (htokens : s'.tokens = .streamEnd :: tokens) (fuel : Nat) :
    scanFrom (fuel + 1) s = ⟨tokens.reverse ++ [.streamEnd], true⟩ := by
  simp [scanFrom, hstep, htokens]

end Scanner

/-- The tokens of a document whose tree is a mapping. -/
theorem scan_write {d : Nat} {entries : List (String × Tree)} (hne : entries ≠ [])
    (h : (Tree.mapping entries).Carried d) (hd : d ≤ Scanner.depthLimit) :
    scan (write (.mapping entries)).toList =
      ⟨(Tree.mapping entries).tokens ++ [.streamEnd], true⟩ := by
  cases h with
  | @mapping d _ hkeys _ h =>
    have hadds := Scanner.adds_mapping hne (fun e he => (hkeys e he).1)
      (fun e he => Scanner.scans_of_carried (h e he)) 0
    have hstarts := starts_writeTree 0 (.mapping entries)
    rw [write, String.toList_ofList]
    generalize writeTree 0 (.mapping entries) = written at hadds hstarts
    have htext : written ++ lineEnd written = written ++ lineEnd written ++ (spaces 0 ++ []) :=
      (List.append_nil _).symm
    rw [htext]
    have hstart :=
      Scanner.at_start ((hstarts.append (lineEnd written)).append (spaces 0 ++ [])).opens
    obtain ⟨s, hsteps, hat⟩ := hadds hstart (.inr ⟨by simp, by decide⟩)
      (by simpa [Scanner.within, Nat.add_comm 1 d] using hd) (Nat.le_refl 0)
      (by simp [Scanner.Opens])
    obtain ⟨s', hstep, htokens⟩ := hat.finish
    obtain ⟨k, hk, hscan⟩ := Scanner.scanFrom_of_steps hsteps (Nat.lt_succ_self _)
    obtain ⟨fuel, rfl⟩ : ∃ fuel, k = fuel + 1 := ⟨k - 1, by omega⟩
    refine (hscan.trans (Scanner.scanFrom_finish hstep htokens fuel)).trans ?_
    simp [Tree.tokens, hne, Scanner.within, Scanner.kept, Scanner.closed, Scanner.closeBlocks,
      Scanner.opened]

end DocSite.Yaml
