import DocSite.Proofs.Json.Value

namespace DocSite.Json

inductive Fits : Nat → Json → Prop
  | null (n : Nat) : Fits n .null
  | bool (n : Nat) (b : Bool) : Fits n (.bool b)
  | text (n : Nat) (s : String) : Fits n (.text s)
  | array {n : Nat} {items : List Json} : (∀ j ∈ items, Fits n j) → Fits (n + 1) (.array items)
  | object {n : Nat} {fields : List (String × Json)} :
    (∀ f ∈ fields, Fits n f.2) → Fits (n + 1) (.object fields)

section Nesting

mutual

def nesting : Json → Nat
  | .array items => nestingItems items + 1
  | .object fields => nestingFields fields + 1
  | _ => 0

def nestingItems : List Json → Nat
  | [] => 0
  | j :: r => max j.nesting (nestingItems r)

def nestingFields : List (String × Json) → Nat
  | [] => 0
  | (_, j) :: r => max j.nesting (nestingFields r)

end

theorem nesting_le_nestingItems {j : Json} {items : List Json} (h : j ∈ items) :
    j.nesting ≤ nestingItems items := by
  induction items with
  | nil => cases h
  | cons i r ih =>
    rw [nestingItems]
    rcases List.mem_cons.mp h with rfl | h
    · exact Nat.le_max_left _ _
    · exact Nat.le_trans (ih h) (Nat.le_max_right _ _)

theorem nesting_le_nestingFields {f : String × Json} {fields : List (String × Json)}
    (h : f ∈ fields) : f.2.nesting ≤ nestingFields fields := by
  induction fields with
  | nil => cases h
  | cons g r ih =>
    rw [nestingFields]
    rcases List.mem_cons.mp h with rfl | h
    · exact Nat.le_max_left _ _
    · exact Nat.le_trans (ih h) (Nat.le_max_right _ _)

theorem NumberFree.fits {j : Json} (h : NumberFree j) {n : Nat} (hn : j.nesting ≤ n) :
    Fits n j := by
  induction h generalizing n with
  | null => exact .null n
  | bool b => exact .bool n b
  | text s => exact .text n s
  | array _ ih =>
    rw [nesting] at hn
    cases n with
    | zero => omega
    | succ n =>
      exact .array fun i hi =>
        ih i hi (Nat.le_trans (nesting_le_nestingItems hi) (Nat.le_of_succ_le_succ hn))
  | object _ ih =>
    rw [nesting] at hn
    cases n with
    | zero => omega
    | succ n =>
      exact .object fun f hf =>
        ih f hf (Nat.le_trans (nesting_le_nestingFields hf) (Nat.le_of_succ_le_succ hn))

end Nesting

section Text

theorem joinUnits_cons {u : Nat} (h : u < 0xd800 ∨ 0xe000 ≤ u) (r : List Nat) :
    joinUnits (u :: r) = Char.ofNat u :: joinUnits r := by
  cases r with
  | nil => rw [joinUnits, joinUnits, if_neg (by omega)]
  | cons v r => rw [joinUnits, if_neg (by omega), if_neg (by omega)]

theorem not_surrogate (c : Char) : c.toNat < 0xd800 ∨ 0xe000 ≤ c.toNat := by
  have := c.valid
  simp only [UInt32.isValidChar, Nat.isValidChar] at this
  unfold Char.toNat
  omega

theorem joinUnits_map_toNat (s : List Char) : joinUnits (s.map Char.toNat) = s := by
  induction s with
  | nil => rfl
  | cons c r ih =>
    rw [List.map_cons, joinUnits_cons (not_surrogate c), ih, Char.ofNat_toNat]

variable (stack : List Frame) (role : TextRole) (units : List Nat)

theorem step_hexDigits {n : Nat} (h : n < 0x10000) :
    (Text.hexDigits 4 n).foldl step ⟨stack, .text role (.code 3 0) units⟩ =
      ⟨stack, .text role .plain (n :: units)⟩ := by
  have hdigit (m : Nat) : Link.hexValue? (Nat.digitChar (m % 16)) = some (m % 16) :=
    hexValue?_digitChar (Nat.mod_lt _ (by decide))
  have hvalue : 16 * (16 * (16 * (n / 16 / 16 / 16 % 16) + n / 16 / 16 % 16) + n / 16 % 16) +
      n % 16 = n := by omega
  simp only [Text.hexDigits, List.nil_append, List.cons_append, List.foldl_cons, List.foldl_nil,
    step, stepText, hdigit, Nat.mul_zero, Nat.zero_add, hvalue]

theorem step_writeChar (c : Char) :
    (writeChar c).foldl step ⟨stack, .text role .plain units⟩ =
      ⟨stack, .text role .plain (c.toNat :: units)⟩ := by
  rcases writeChar_cases c with ⟨x, hx, hunit, hc⟩ | ⟨hn, hc⟩ | ⟨hquote, hslash, hn, hc⟩
  · rw [hc]
    simp [step, stepText, hx, hunit]
  · rw [hc, List.foldl_cons, List.foldl_cons, ← step_hexDigits stack role units hn]
    rfl
  · rw [hc]
    simp [step, stepText, hquote, hslash, Nat.not_lt.mpr hn]

theorem step_writeChars (s : List Char) :
    (s.flatMap writeChar).foldl step ⟨stack, .text role .plain units⟩ =
      ⟨stack, .text role .plain ((s.map Char.toNat).reverse ++ units)⟩ := by
  induction s generalizing units with
  | nil => rfl
  | cons c r ih => simp [step_writeChar, ih]

theorem step_text (s : String) :
    (s.toList.flatMap writeChar ++ ['"']).foldl step ⟨stack, .text role .plain []⟩ =
      match role with
      | .value => deliver stack (.text s)
      | .key before => ⟨stack, .colon before s⟩ := by
  rw [List.foldl_append, step_writeChars]
  cases role <;> simp [step, stepText, deliverText, joinUnits_map_toNat]

end Text

section Layout

/-- The blanks between the parts of a document: before and after every member, depending on how many
containers are open, and after the colon of a field. -/
structure Layout where
  gap : Nat → List Char
  pad : List Char
  isSpace_gap : ∀ depth, ∀ c ∈ gap depth, isSpace c
  isSpace_pad : ∀ c ∈ pad, isSpace c

def Layout.onLine : Layout := ⟨fun _ => [], [], nofun, nofun⟩

def Layout.overLines : Layout where
  gap := newLine
  pad := [' ']
  isSpace_gap depth c hc := by
    rcases List.mem_cons.mp hc with rfl | hc
    · rfl
    · rw [List.eq_of_mem_replicate hc]
      rfl
  isSpace_pad := by simp [isSpace]

mutual

def Layout.write (layout : Layout) (depth : Nat) : Json → List Char
  | .array (j :: r) =>
    '[' :: layout.gap (depth + 1) ++ layout.items (depth + 1) (j :: r) ++ layout.gap depth ++ [']']
  | .object (f :: r) =>
    '{' :: layout.gap (depth + 1) ++ layout.fields (depth + 1) (f :: r) ++ layout.gap depth ++ ['}']
  | .array [] => ['[', ']']
  | .object [] => ['{', '}']
  | .null => ['n', 'u', 'l', 'l']
  | .bool true => ['t', 'r', 'u', 'e']
  | .bool false => ['f', 'a', 'l', 's', 'e']
  | .number digits => digits.toList
  | .text s => writeText s

def Layout.items (layout : Layout) (depth : Nat) : List Json → List Char
  | [] => []
  | [j] => layout.write depth j
  | j :: r => layout.write depth j ++ ',' :: layout.gap depth ++ layout.items depth r

def Layout.fields (layout : Layout) (depth : Nat) : List (String × Json) → List Char
  | [] => []
  | [(key, j)] => writeText key ++ ':' :: layout.pad ++ layout.write depth j
  | (key, j) :: r =>
    writeText key ++ ':' :: layout.pad ++ layout.write depth j ++ ',' :: layout.gap depth ++
      layout.fields depth r

end

mutual

theorem Layout.write_overLines (depth : Nat) (j : Json) :
    overLines.write depth j = writeIndented depth j := by
  match j with
  | .array (j :: r) =>
    rw [write, writeIndented, items_overLines (depth + 1) (j :: r)]
    rfl
  | .object ((key, j) :: r) =>
    rw [write, writeIndented, fields_overLines (depth + 1) ((key, j) :: r)]
    rfl
  | .array [] | .object [] | .null | .bool true | .bool false | .number _ | .text _ =>
    simp only [write, writeIndented]

theorem Layout.items_overLines (depth : Nat) (l : List Json) :
    overLines.items depth l = indentedItems depth l := by
  match l with
  | [] => rw [items, indentedItems]
  | [j] => rw [items, indentedItems, write_overLines depth j]
  | j :: i :: r =>
    rw [items, indentedItems, write_overLines depth j, items_overLines depth (i :: r)]
    · rfl
    all_goals simp

theorem Layout.fields_overLines (depth : Nat) (l : List (String × Json)) :
    overLines.fields depth l = indentedFields depth l := by
  match l with
  | [] => rw [fields, indentedFields]
  | [(key, j)] =>
    rw [fields, indentedFields, write_overLines depth j]
    simp [overLines]
  | (key, j) :: g :: r =>
    rw [fields, indentedFields, write_overLines depth j, fields_overLines depth (g :: r)]
    · simp [overLines]
    all_goals simp

end

mutual

theorem Layout.write_onLine (depth : Nat) (j : Json) : onLine.write depth j = writeCompact j := by
  match j with
  | .array (j :: r) =>
    rw [write, writeCompact, items_onLine (depth + 1) (j :: r)]
    simp [onLine]
  | .object ((key, j) :: r) =>
    rw [write, writeCompact, fields_onLine (depth + 1) ((key, j) :: r)]
    simp [onLine]
  | .array [] => simp [write, writeCompact, compactItems]
  | .object [] => simp [write, writeCompact, compactFields]
  | .null | .bool true | .bool false | .number _ | .text _ => simp only [write, writeCompact]

theorem Layout.items_onLine (depth : Nat) (l : List Json) :
    onLine.items depth l = compactItems l := by
  match l with
  | [] => rw [items, compactItems]
  | [j] => rw [items, compactItems, write_onLine depth j]
  | j :: i :: r =>
    rw [items, compactItems, write_onLine depth j, items_onLine depth (i :: r)]
    · simp [onLine]
    all_goals simp

theorem Layout.fields_onLine (depth : Nat) (l : List (String × Json)) :
    onLine.fields depth l = compactFields l := by
  match l with
  | [] => rw [fields, compactFields]
  | [(key, j)] =>
    rw [fields, compactFields, write_onLine depth j]
    simp [onLine]
  | (key, j) :: g :: r =>
    rw [fields, compactFields, write_onLine depth j, fields_onLine depth (g :: r)]
    · simp [onLine]
    all_goals simp

end

end Layout

theorem foldl_blanks {s : State} (h : ∀ c, isSpace c → step s c = s) {blanks : List Char}
    (hblanks : ∀ c ∈ blanks, isSpace c) : blanks.foldl step s = s := by
  induction blanks with
  | nil => rfl
  | cons c r ih =>
    rw [List.forall_mem_cons] at hblanks
    rw [List.foldl_cons, h c hblanks.1, ih hblanks.2]

theorem Layout.foldl_gap (layout : Layout) {s : State} (h : ∀ c, isSpace c → step s c = s)
    (depth : Nat) : (layout.gap depth).foldl step s = s :=
  foldl_blanks h (layout.isSpace_gap depth)

section Value

/-- The reader takes a written value at any place for one and hands it on. -/
def ReadsBack (layout : Layout) (n : Nat) (j : Json) : Prop :=
  ∀ (stack : List Frame) (depth : Nat), stack.length + n ≤ depthLimit →
    (layout.write depth j).foldl step ⟨stack, .value⟩ = deliver stack j

theorem exists_write_eq_cons (layout : Layout) {n : Nat} {j : Json} (h : Fits n j) (depth : Nat) :
    ∃ c r, layout.write depth j = c :: r ∧ isSpace c = false ∧ c ≠ ']' := by
  cases h with
  | null => exact ⟨_, _, rfl, by decide⟩
  | bool _ b => cases b <;> exact ⟨_, _, rfl, by decide⟩
  | text _ s => exact ⟨_, _, rfl, by decide⟩
  | @array _ items =>
    cases items <;> exact ⟨'[', _, by simp only [Layout.write, List.cons_append]; rfl, by decide⟩
  | @object _ fields =>
    cases fields <;> exact ⟨'{', _, by simp only [Layout.write, List.cons_append]; rfl, by decide⟩

variable {layout : Layout}

theorem step_items {n : Nat} {j : Json} {r : List Json} (h : ∀ i ∈ j :: r, ReadsBack layout n i)
    {stack : List Frame} {depth : Nat} (hn : stack.length + 1 + n ≤ depthLimit)
    (before : List Json) :
    (layout.items depth (j :: r)).foldl step ⟨.array before :: stack, .value⟩ =
      ⟨stack, .item ((j :: r).reverse ++ before)⟩ := by
  induction r generalizing j before with
  | nil =>
    rw [Layout.items, h j (by simp) (.array before :: stack) depth hn]
    rfl
  | cons i r ih =>
    rw [List.forall_mem_cons] at h
    have hcomma : step (deliver (.array before :: stack) j) ',' =
        ⟨.array (j :: before) :: stack, .value⟩ := rfl
    rw [Layout.items, List.append_assoc, List.foldl_append,
      h.1 (.array before :: stack) depth hn, List.cons_append, List.foldl_cons, hcomma,
      List.foldl_append, layout.foldl_gap, ih h.2]
    · simp
    · intro c hc
      simp [step, hc]
    · simp

theorem step_field {n : Nat} {f : String × Json} (h : ReadsBack layout n f.2) {stack : List Frame}
    {depth : Nat} (hn : stack.length + 1 + n ≤ depthLimit) (before : List (String × Json)) :
    (writeText f.1 ++ ':' :: layout.pad ++ layout.write depth f.2).foldl step ⟨stack, .key before⟩ =
      ⟨stack, .field (f :: before)⟩ := by
  have hquote : step ⟨stack, .key before⟩ '"' = ⟨stack, .text (.key before) .plain []⟩ := rfl
  have hcolon : step ⟨stack, .colon before f.1⟩ ':' = ⟨.object before f.1 :: stack, .value⟩ := rfl
  have hpad : layout.pad.foldl step ⟨.object before f.1 :: stack, .value⟩ =
      ⟨.object before f.1 :: stack, .value⟩ :=
    foldl_blanks (fun c hc => by simp [step, hc]) layout.isSpace_pad
  have hkey : (writeText f.1).foldl step ⟨stack, .key before⟩ = ⟨stack, .colon before f.1⟩ := by
    rw [writeText, List.cons_append, List.foldl_cons, hquote, step_text]
  rw [List.foldl_append, List.foldl_append, hkey, List.foldl_cons, hcolon, hpad,
    h (.object before f.1 :: stack) depth hn]
  rfl

theorem step_fields {n : Nat} {f : String × Json} {r : List (String × Json)}
    (h : ∀ g ∈ f :: r, ReadsBack layout n g.2) {stack : List Frame} {depth : Nat}
    (hn : stack.length + 1 + n ≤ depthLimit) (before : List (String × Json)) :
    (layout.fields depth (f :: r)).foldl step ⟨stack, .key before⟩ =
      ⟨stack, .field ((f :: r).reverse ++ before)⟩ := by
  induction r generalizing f before with
  | nil =>
    rw [Layout.fields, step_field (h f (by simp)) hn]
    rfl
  | cons g r ih =>
    rw [List.forall_mem_cons] at h
    have hcomma : step ⟨stack, .field (f :: before)⟩ ',' = ⟨stack, .key (f :: before)⟩ := rfl
    rw [Layout.fields, List.append_assoc, List.foldl_append, step_field h.1 hn, List.cons_append,
      List.foldl_cons, hcomma, List.foldl_append, layout.foldl_gap, ih h.2]
    · simp
    · intro c hc
      simp [step, hc]
    · simp

theorem step_array {n : Nat} {items : List Json} (h : ∀ j ∈ items, Fits n j)
    (ih : ∀ j ∈ items, ReadsBack layout n j) : ReadsBack layout (n + 1) (.array items) := by
  intro stack depth hn
  have hopen : step ⟨stack, .value⟩ '[' = ⟨stack, .firstItem⟩ := by
    simp [step, isSpace, startValue, openWith, show stack.length < depthLimit by omega]
  cases items with
  | nil =>
    rw [Layout.write, List.foldl_cons, hopen]
    rfl
  | cons j r =>
    -- the first member starts with neither a space nor the bracket that would close the array
    have hfirst : (layout.items (depth + 1) (j :: r)).foldl step ⟨stack, .firstItem⟩ =
        (layout.items (depth + 1) (j :: r)).foldl step ⟨.array [] :: stack, .value⟩ := by
      obtain ⟨c, t, hc, hspace, hclose⟩ :=
        exists_write_eq_cons layout (h j List.mem_cons_self) (depth + 1)
      cases r with
      | nil => simp [Layout.items, hc, step, hspace, hclose]
      | cons i r => simp [Layout.items, hc, step, hspace, hclose]
    have hbefore : ∀ c, isSpace c → step ⟨stack, .firstItem⟩ c = ⟨stack, .firstItem⟩ :=
      fun c hc => by simp [step, hc]
    have hafter : ∀ l c, isSpace c → step ⟨stack, .item l⟩ c = ⟨stack, .item l⟩ :=
      fun l c hc => by simp [step, stepAfter, hc]
    have hbelow : stack.length + 1 + n ≤ depthLimit := by omega
    simp only [Layout.write, List.foldl_append, List.foldl_cons, List.foldl_nil, hopen,
      layout.foldl_gap hbefore, hfirst, step_items ih hbelow, layout.foldl_gap (hafter _)]
    simp [step, stepAfter, isSpace]

theorem step_object {n : Nat} {fields : List (String × Json)}
    (ih : ∀ f ∈ fields, ReadsBack layout n f.2) : ReadsBack layout (n + 1) (.object fields) := by
  intro stack depth hn
  have hopen : step ⟨stack, .value⟩ '{' = ⟨stack, .firstKey⟩ := by
    simp [step, isSpace, startValue, openWith, show stack.length < depthLimit by omega]
  cases fields with
  | nil =>
    rw [Layout.write, List.foldl_cons, hopen]
    rfl
  | cons f r =>
    have hfirst : (layout.fields (depth + 1) (f :: r)).foldl step ⟨stack, .firstKey⟩ =
        (layout.fields (depth + 1) (f :: r)).foldl step ⟨stack, .key []⟩ := by
      cases r with
      | nil => simp [Layout.fields, writeText, step, isSpace]
      | cons g r => simp [Layout.fields, writeText, step, isSpace]
    have hbefore : ∀ c, isSpace c → step ⟨stack, .firstKey⟩ c = ⟨stack, .firstKey⟩ :=
      fun c hc => by simp [step, hc]
    have hafter : ∀ l c, isSpace c → step ⟨stack, .field l⟩ c = ⟨stack, .field l⟩ :=
      fun l c hc => by simp [step, stepAfter, hc]
    have hbelow : stack.length + 1 + n ≤ depthLimit := by omega
    simp only [Layout.write, List.foldl_append, List.foldl_cons, List.foldl_nil, hopen,
      layout.foldl_gap hbefore, hfirst, step_fields ih hbelow, layout.foldl_gap (hafter _)]
    simp [step, stepAfter, isSpace]

theorem readsBack {n : Nat} {j : Json} (h : Fits n j) : ReadsBack layout n j := by
  induction h with
  | null =>
    intro stack depth _
    rfl
  | bool _ b =>
    intro stack depth _
    cases b <;> rfl
  | text _ s =>
    intro stack depth _
    have hquote : step ⟨stack, .value⟩ '"' = ⟨stack, .text .value .plain []⟩ := rfl
    rw [Layout.write, writeText, List.cons_append, List.foldl_cons, hquote, step_text]
  | array h ih => exact step_array h ih
  | object _ ih => exact step_object ih

end Value

theorem parse?_write (layout : Layout) {j : Json} (h : Fits depthLimit j) {blanks : List Char}
    (hblanks : ∀ c ∈ blanks, isSpace c) : parse? (layout.write 0 j ++ blanks) = some j := by
  have hback : ReadsBack layout depthLimit j := readsBack h
  have hvalue := hback [] 0 (by simp)
  have hdone : ∀ c, isSpace c → step ⟨[], .done j⟩ c = ⟨[], .done j⟩ :=
    fun c hc => by simp [step, stepAfter, hc]
  rw [parse?, List.foldl_append, State.start, hvalue, deliver, foldl_blanks hdone hblanks]
  rfl

theorem parse?_page {j : Json} (h : Fits depthLimit j) : parse? (page j).toList = some j := by
  rw [page, String.toList_ofList, ← Layout.write_overLines]
  exact parse?_write .overLines h (by simp [isSpace])

theorem parse?_writeCompact {j : Json} (h : Fits depthLimit j) :
    parse? (writeCompact j) = some j := by
  rw [← Layout.write_onLine 0, ← List.append_nil (Layout.write _ _ _)]
  exact parse?_write .onLine h nofun

end DocSite.Json
