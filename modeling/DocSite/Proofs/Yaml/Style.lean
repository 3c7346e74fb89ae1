import DocSite.Proofs.Yaml.Literal
import DocSite.Proofs.Yaml.Plain
import DocSite.Proofs.Yaml.Quoted

/-!
The styles of texts in YAML: what each style asks of a text, what the written text looks like, and
which texts come back. A literal block loses a line break that its text starts with, and cannot
start with a tab.
-/

namespace DocSite.Yaml

/-- The texts that are read back as they were written. -/
def keepsText (s : String) : Bool :=
  styleOf s != .literal || (s.toList.head?.map fun c => !isBreak c && c != '\t').getD false

/-- A text that is taken for a plain scalar wherever it starts. -/
structure PlainText (s : List Char) : Prop extends PlainWords s where
  start : ∀ x r, s = x :: r → isIndicator x = false ∧
    (x = '?' ∨ x = ':' ∨ x = '-' → ∃ y t, r = y :: t ∧ isBlank y = false)
  marks : ['-', '-', '-'].isPrefixOf s = false ∧ ['.', '.', '.'].isPrefixOf s = false

theorem isPrefixOf_append_cons {mark y : Char} (hy : y ≠ mark) {s : List Char}
    (h : [mark, mark, mark].isPrefixOf s = false) (r : List Char) :
    [mark, mark, mark].isPrefixOf (s ++ y :: r) = false := by
  match s, h with
  | [], _ => simp [List.isPrefixOf, hy.symm]
  | [x], _ => simp [List.isPrefixOf, hy.symm]
  | [x, z], _ => simp [List.isPrefixOf, hy.symm]
  | x :: z :: w :: t, h => simpa [List.isPrefixOf] using h

theorem PlainText.isDocumentBoundary {c : Cursor} {s : List Char} (h : PlainText s) {y : Char}
    {r : List Char} (hy : y ≠ '-' ∧ y ≠ '.') (hc : c.rest = s ++ y :: r) :
    c.isDocumentBoundary = false := by
  simp [Cursor.isDocumentBoundary, Cursor.isDocumentMark, hc,
    isPrefixOf_append_cons hy.1 h.marks.1, isPrefixOf_append_cons hy.2 h.marks.2]

theorem PlainText.lineEnd {s : List Char} (h : PlainText s) : lineEnd s = ['\n'] := by
  cases hlast : s.getLast? with
  | none => simp [Yaml.lineEnd, hlast]
  | some x =>
    rw [lineEnd_of_getLast? hlast, (h.chars x (List.mem_of_getLast? hlast)).2]
    rfl

theorem lineEnd_sign (quote : Quote) (body : List Char) :
    lineEnd (body ++ [quote.sign]) = ['\n'] := by
  rw [lineEnd_of_getLast? List.getLast?_concat]
  cases quote <;> rfl

theorem plainText_of_allowed {s : List Char} (h : plainAllowed s) (hne : s ≠ []) : PlainText s := by
  obtain ⟨x, r, rfl⟩ := List.exists_cons_of_ne_nil hne
  simp only [plainAllowed, List.isEmpty_cons, Bool.false_or, Bool.not_eq_true',
    Bool.or_eq_false_iff]
    at h
  obtain ⟨⟨⟨⟨⟨hfirst, hlast⟩, htab⟩, _⟩, hbreak⟩, hsign⟩ := h
  simp only [hasIndicator, Bool.or_eq_false_iff] at hsign
  obtain ⟨⟨⟨⟨hdashes, hpoints⟩, hindicator⟩, hends⟩, hinner⟩ := hsign
  have hchars : ∀ y ∈ x :: r, y ≠ '\t' ∧ isBreak y = false := by
    intro y hy
    refine ⟨?_, by simpa using List.any_eq_false.mp hbreak y hy⟩
    rintro rfl
    rw [List.contains_iff_mem.mpr hy] at htab
    cases htab
  refine ⟨⟨⟨x, r, rfl, ?_⟩, ?_, hchars, ?_⟩, ?_, hdashes, hpoints⟩
  · obtain ⟨hspace, hnobreak⟩ : isSpace x = false ∧ isBreak x = false := by simpa using hfirst
    rw [isSpace] at hspace
    simp [isGapChar, isBlank, hspace, (hchars x (by simp)).1, hnobreak]
  · intro y hy
    rw [Option.mem_def.mp hy] at hlast
    exact (Bool.or_eq_false_iff.mp hlast).1
  · rw [hasInnerIndicator, Bool.or_eq_false_iff, Bool.or_eq_false_iff]
    refine ⟨⟨?_, ?_⟩, hinner⟩
    · by_cases hx : x = ':'
      · simpa [hx] using hends
      · simp [hx]
    · have hx : x ≠ '#' := by
        rintro rfl
        exact absurd hindicator (by decide)
      simp [hx]
  · rintro _ _ ⟨⟩
    refine ⟨hindicator, fun hx => ?_⟩
    have hsign : (x == '?' || x == ':' || x == '-') = true := by
      rcases hx with rfl | rfl | rfl <;> rfl
    rw [hsign, Bool.true_and] at hends
    cases r with
    | nil => simp at hends
    | cons y t => exact ⟨y, t, rfl, by simpa using hends⟩

theorem isPrintable_of_isBreak {s : List Char} (h : hasSpecial s = false) {x : Char} (hx : x ∈ s)
    (hbreak : isBreak x) : isPrintable x := by
  have htab : x ≠ '\t' := by
    rintro rfl
    exact absurd hbreak (by decide)
  simpa [htab] using List.any_eq_false.mp h x hx

theorem style_cases (s : String) :
    styleOf s = .double ∨
      (styleOf s = .plain ∧ '\n' ∉ s.toList ∧ readsAsText s ∧ plainAllowed s.toList) ∨
      (styleOf s = .single ∧ '\n' ∉ s.toList ∧ singleAllowed s.toList) ∨
      (styleOf s = .literal ∧ '\n' ∈ s.toList ∧ literalAllowed s.toList) := by
  by_cases hbreak : '\n' ∈ s.toList
  · by_cases hallowed : literalAllowed s.toList <;> simp [styleOf, hbreak, hallowed]
  · by_cases hreads : readsAsText s
    · by_cases hplain : plainAllowed s.toList
      · simp [styleOf, hbreak, hreads, hplain]
      · by_cases hsingle : singleAllowed s.toList <;>
          simp [styleOf, hbreak, hreads, hplain, hsingle]
    · simp [styleOf, hbreak, hreads]

theorem newLine_mem_of_literal {s : String} (h : styleOf s = .literal) : '\n' ∈ s.toList := by
  rcases style_cases s with hs | ⟨hs, _⟩ | ⟨hs, _⟩ | ⟨_, hbreak, _⟩
  · exact absurd (h.symm.trans hs) (by decide)
  · exact absurd (h.symm.trans hs) (by decide)
  · exact absurd (h.symm.trans hs) (by decide)
  · exact hbreak

theorem writeText_cases {n : Nat} (hn : n ≠ 0) (s : String) :
    (styleOf s = .plain ∧ writeText n s = s.toList ∧ PlainText s.toList ∧ readsAsText s) ∨
      (styleOf s ≠ .plain ∧ ∃ quote unit body, writeText n s = quote.sign :: body ++ [quote.sign] ∧
        Quoted quote unit s.toList body) ∨
      (styleOf s = .literal ∧ writeText n s = writeLiteral n s.toList ∧
        ∀ x ∈ s.toList, isBreak x → isPrintable x) := by
  rcases style_cases s with h | ⟨h, _, hreads, hplain⟩ | ⟨h, hbreak, hsingle⟩ | ⟨h, _, hallowed⟩
  · exact .inr (.inl ⟨by simp [h], .double, _, _, by rw [writeText, h]; exact writeDouble_eq _,
      quoted_double _ _⟩)
  · refine .inl ⟨h, by rw [writeText, h], plainText_of_allowed hplain ?_, hreads⟩
    intro hempty
    obtain rfl : s = "" := String.toList_eq_nil_iff.mp hempty
    exact absurd hreads (by decide)
  · exact .inr (.inl ⟨by simp [h], .single, _, _, by rw [writeText, h]; rfl,
      quoted_single n hsingle hbreak hn⟩)
  · refine .inr (.inr ⟨h, by rw [writeText, h], fun x hx => ?_⟩)
    simp only [literalAllowed, Bool.not_eq_true', Bool.or_eq_false_iff] at hallowed
    exact isPrintable_of_isBreak hallowed.2 hx

theorem endsWord_sign (quote : Quote) {rest : List Char} (h : rest.head? ≠ some '\'') :
    EndsWord quote (quote.sign :: rest) := by
  cases quote with
  | single => exact endsWord_single h
  | double => exact endsWord_double rest

section Characters

theorem isReadable_of_isPrintable {x : Char} (h : isPrintable x) : isReadable x := by
  simp only [isPrintable, isReadable, Bool.or_eq_true, Bool.and_eq_true, decide_eq_true_eq,
    beq_iff_eq, bne_iff_ne] at h ⊢
  omega

def IsShown (x : Char) : Prop := isPrintable x ∧ isBreak x = false

theorem isShown_of_ascii {x : Char} (h : 0x20 ≤ x.toNat ∧ x.toNat ≤ 0x7e) : IsShown x := by
  simp only [IsShown, isPrintable, isBreak, Bool.or_eq_true, Bool.and_eq_true, decide_eq_true_eq,
    beq_iff_eq, bne_iff_ne, Bool.or_eq_false_iff, beq_eq_false_iff_ne]
  omega

theorem isShown_upperDigits {width n : Nat} {x : Char} (h : x ∈ upperDigits width n) :
    IsShown x := by
  have hdigit : ∀ d < 16, 0x20 ≤ (Nat.digitChar d).toUpper.toNat ∧
      (Nat.digitChar d).toUpper.toNat ≤ 0x7e := by decide
  induction width generalizing n with
  | zero => simp [upperDigits] at h
  | succ width ih =>
    rw [upperDigits, List.mem_append, List.mem_singleton] at h
    rcases h with h | rfl
    · exact ih h
    · exact isShown_of_ascii (hdigit _ (Nat.mod_lt _ (by decide)))

theorem isShown_escape {c x : Char} (h : x ∈ escape c) : IsShown x := by
  have hcode {letter : Char} {width : Nat} (hletter : IsShown letter)
      (h : x ∈ letter :: upperDigits width c.toNat) : IsShown x := by
    rcases List.mem_cons.mp h with rfl | h
    · exact hletter
    · exact isShown_upperDigits h
  rcases List.mem_cons.mp h with rfl | h
  · exact isShown_of_ascii (by decide)
  · split at h
    case h_16 =>
      split at h
      case isTrue => exact hcode (isShown_of_ascii (by decide)) h
      case isFalse =>
        split at h
        case isTrue => exact hcode (isShown_of_ascii (by decide)) h
        case isFalse => exact hcode (isShown_of_ascii (by decide)) h
    all_goals
      obtain rfl := List.mem_singleton.mp h
      exact isShown_of_ascii (by decide)

theorem isShown_doubleUnit {marked : Bool} {c x : Char} (h : x ∈ doubleUnit marked c) :
    IsShown x := by
  rw [doubleUnit] at h
  split at h
  case isTrue => exact isShown_escape h
  case isFalse hraw =>
    obtain rfl := List.mem_singleton.mp h
    simp only [Bool.or_eq_true, Bool.not_eq_true', not_or, Bool.not_eq_true, beq_iff_eq] at hraw
    exact ⟨by simpa using hraw.1.1.1.2, hraw.1.1.2⟩

theorem mem_singleBody {n : Nat} {broken : Bool} {s : List Char} {x : Char}
    (h : x ∈ singleBody n broken s) : x ∈ s ∨ x = ' ' := by
  induction s generalizing broken with
  | nil => simp [singleBody] at h
  | cons c r ih =>
    rw [singleBody] at h
    split at h
    case isTrue =>
      rcases List.mem_cons.mp h with rfl | h
      · exact .inl List.mem_cons_self
      · exact (ih h).imp_left (List.mem_cons_of_mem c)
    case isFalse =>
      rcases List.mem_append.mp h with h | h
      · rcases List.mem_append.mp h with h | h
        · split at h
          · exact .inr (List.eq_of_mem_replicate h)
          · simp at h
        · split at h
          case isTrue hc => exact .inl (by simp_all)
          case isFalse => exact .inl (by simp_all)
      · exact (ih h).imp_left (List.mem_cons_of_mem c)

theorem mem_literalBody {n : Nat} {broken fresh : Bool} {s : List Char} {x : Char}
    (h : x ∈ literalBody n broken fresh s) : x ∈ s ∨ x = ' ' ∨ x = '\n' := by
  induction s generalizing broken fresh with
  | nil => simp [literalBody] at h
  | cons c r ih =>
    rw [literalBody] at h
    split at h
    case isTrue =>
      rcases List.mem_cons.mp h with rfl | h
      · exact .inl List.mem_cons_self
      · exact (ih h).imp_left (List.mem_cons_of_mem c)
    case isFalse =>
      rcases List.mem_append.mp h with h | h
      · split at h
        · rcases List.mem_append.mp h with h | h
          · split at h
            · simp at h
            · exact .inr (.inr (List.mem_singleton.mp h))
          · exact .inr (.inl (List.eq_of_mem_replicate h))
        · simp at h
      · rcases List.mem_cons.mp h with rfl | h
        · exact .inl List.mem_cons_self
        · exact (ih h).imp_left (List.mem_cons_of_mem c)

theorem isReadable_of_not_special {s : List Char} (h : hasSpecial s = false) {x : Char}
    (hx : x ∈ s) :
    isReadable x := by
  by_cases htab : x = '\t'
  · subst htab
    rfl
  · exact isReadable_of_isPrintable (by simpa [htab] using List.any_eq_false.mp h x hx)

theorem hasSpecial_of_plainAllowed {s : List Char} (h : plainAllowed s) : hasSpecial s = false := by
  rw [plainAllowed, Bool.or_eq_true, List.isEmpty_iff] at h
  rcases h with rfl | h
  · rfl
  · simp only [Bool.not_eq_true', Bool.or_eq_false_iff] at h
    exact h.1.1.2

theorem isShown_writeDouble {s : List Char} {x : Char} (h : x ∈ writeDouble s) : IsShown x := by
  rw [writeDouble_eq, List.cons_append, List.mem_cons, List.mem_append, List.mem_singleton] at h
  rcases h with rfl | h | rfl
  · exact isShown_of_ascii (by decide)
  · obtain ⟨c, _, hx⟩ := List.mem_flatMap.mp h
    exact isShown_doubleUnit hx
  · exact isShown_of_ascii (by decide)

theorem mem_writeLiteral {n : Nat} {s : List Char} {x : Char} (h : x ∈ writeLiteral n s) :
    x ∈ s ∨ x = '\n' ∨ IsShown x := by
  have hmark : ∀ y ∈ chompMark s, y = '-' ∨ y = '+' := by
    intro y hy
    rw [chompMark] at hy
    repeat' split at hy
    all_goals simp_all
  rw [writeLiteral, List.cons_append, List.cons_append, List.append_assoc, List.mem_cons,
    List.mem_append, List.mem_append] at h
  rcases h with rfl | h | h | h
  · exact .inr (.inr (isShown_of_ascii (by decide)))
  · split at h
    · obtain rfl := List.mem_singleton.mp h
      exact .inr (.inr (isShown_of_ascii (by decide)))
    · simp at h
  · rcases hmark x h with rfl | rfl <;> exact .inr (.inr (isShown_of_ascii (by decide)))
  · rcases mem_literalBody h with h | rfl | rfl
    · exact .inl h
    · exact .inr (.inr (isShown_of_ascii (by decide)))
    · exact .inr (.inl rfl)

theorem isReadable_writeText {n : Nat} {s : String} {x : Char} (h : x ∈ writeText n s) :
    isReadable x := by
  rcases style_cases s with hs | ⟨hs, _, _, hplain⟩ | ⟨hs, _, hsingle⟩ | ⟨hs, _, hallowed⟩
  · rw [writeText, hs] at h
    exact isReadable_of_isPrintable (isShown_writeDouble h).1
  · rw [writeText, hs] at h
    exact isReadable_of_not_special (hasSpecial_of_plainAllowed hplain) h
  · rw [writeText, hs] at h
    simp only [singleAllowed, Bool.not_eq_true', Bool.or_eq_false_iff] at hsingle
    simp only [List.cons_append, List.mem_cons, List.mem_append, List.not_mem_nil, or_false] at h
    rcases h with rfl | h | rfl
    · rfl
    · rcases mem_singleBody h with h | rfl
      · exact isReadable_of_not_special hsingle.2 h
      · rfl
    · rfl
  · rw [writeText, hs] at h
    simp only [literalAllowed, Bool.not_eq_true', Bool.or_eq_false_iff] at hallowed
    rcases mem_writeLiteral h with h | rfl | h
    · exact isReadable_of_not_special hallowed.2 h
    · rfl
    · exact isReadable_of_isPrintable h.1

theorem isMultiline_writeText {n : Nat} {s : String} (h : isMultiline s.toList = false) :
    isMultiline (writeText n s) = false := by
  rw [isMultiline, List.any_eq_false] at h ⊢
  intro x hx
  rcases style_cases s with hs | ⟨hs, _⟩ | ⟨hs, _⟩ | ⟨hs, hbreak, _⟩
  · rw [writeText, hs] at hx
    simp [(isShown_writeDouble hx).2]
  · rw [writeText, hs] at hx
    exact h x hx
  · rw [writeText, hs] at hx
    simp only [List.cons_append, List.mem_cons, List.mem_append, List.not_mem_nil, or_false] at hx
    rcases hx with rfl | hx | rfl
    · decide
    · rcases mem_singleBody hx with hx | rfl
      · exact h x hx
      · decide
    · decide
  · exact absurd (h '\n' hbreak) (by decide)

theorem exists_writeText_eq_cons (n : Nat) (s : String) :
    ∃ x r, writeText n s = x :: r ∧ isGapChar x = false ∧ x ≠ '#' ∧ x ≠ '\uFEFF' := by
  rcases style_cases s with hs | ⟨hs, _, hreads, hplain⟩ | ⟨hs, _⟩ | ⟨hs, _⟩
  · exact ⟨'"', _, by rw [writeText, hs]; rfl, by decide, by decide, by decide⟩
  · have hne : s.toList ≠ [] := by
      intro hempty
      obtain rfl : s = "" := String.toList_eq_nil_iff.mp hempty
      exact absurd hreads (by decide)
    obtain ⟨x, r, hx, hgap⟩ := (plainText_of_allowed hplain hne).first
    have hspecial := List.any_eq_false.mp (hasSpecial_of_plainAllowed hplain) x (by simp [hx])
    have hindicator := ((plainText_of_allowed hplain hne).start x r hx).1
    refine ⟨x, r, by rw [writeText, hs]; exact hx, hgap, ?_, ?_⟩
    · rintro rfl
      exact absurd hindicator (by decide)
    · rintro rfl
      exact absurd hspecial (by decide)
  · exact ⟨'\'', _, by rw [writeText, hs]; rfl, by decide, by decide, by decide⟩
  · exact ⟨'|', _, by rw [writeText, hs]; rfl, by decide, by decide, by decide⟩

end Characters

section Length

theorem length_escape_le (c : Char) : (escape c).length ≤ 6 * c.utf8Size := by
  have hpos := c.utf8Size_pos
  unfold escape
  split
  case h_16 =>
    split
    case isTrue =>
      simp only [List.length_cons, length_upperDigits]
      omega
    case isFalse =>
      split
      case isTrue =>
        simp only [List.length_cons, length_upperDigits]
        omega
      case isFalse h =>
        have hsize : c.utf8Size = 4 :=
          Char.utf8Size_eq_four_iff.mpr (UInt32.lt_iff_toNat_lt.mpr (by simpa using h))
        simp only [List.length_cons, length_upperDigits]
        omega
  all_goals
    simp only [List.length_cons, List.length_nil]
    omega

theorem length_flatMap_le {unit : Char → List Char} (h : ∀ c, (unit c).length ≤ 6 * c.utf8Size)
    (s : List Char) : (s.flatMap unit).length ≤ 6 * (String.ofList s).utf8ByteSize := by
  induction s with
  | nil => simp
  | cons c r ih =>
    have hc := h c
    rw [List.flatMap_cons, List.length_append, String.ofList_cons, String.utf8ByteSize_append,
      String.utf8ByteSize_singleton]
    omega

theorem length_unit_le {unit : Char → List Char} (h : ∀ c, unit c = escape c ∨ (unit c).length ≤ 2)
    (c : Char) : (unit c).length ≤ 6 * c.utf8Size := by
  have hpos := c.utf8Size_pos
  rcases h c with h | h
  · rw [h]
    exact length_escape_le c
  · omega

theorem length_writeText_le {n : Nat} {key : String} (h : isSimpleKey key) :
    (writeText n key).length ≤ 1024 := by
  rw [isSimpleKey, Bool.and_eq_true, Bool.not_eq_true', decide_eq_true_eq] at h
  have hunits (unit : Char → List Char) (hunit : ∀ c, unit c = escape c ∨ (unit c).length ≤ 2) :
      (key.toList.flatMap unit).length ≤ 768 := by
    have := length_flatMap_le (length_unit_le hunit) key.toList
    rw [String.ofList_toList] at this
    omega
  rcases style_cases key with hs | ⟨hs, _⟩ | ⟨hs, _⟩ | ⟨hs, hbreak, _⟩
  · have := hunits (doubleUnit (key.toList.head? == some '\uFEFF')) fun c => by
      rw [doubleUnit]
      split
      · exact .inl rfl
      · exact .inr (by simp)
    rw [writeText, hs]
    simp only [writeDouble_eq, List.cons_append, List.length_cons, List.length_append,
      List.length_nil]
    omega
  · have := hunits (fun c => [c]) fun c => .inr (by simp)
    rw [List.flatMap_singleton'] at this
    rw [writeText, hs]
    exact Nat.le_trans this (by decide)
  · have := hunits singleUnit fun c => by
      rw [singleUnit]
      split <;> exact .inr (by simp)
    have hbody := singleBody_line n (w := key.toList) (fun c hc => by
      simpa using List.any_eq_false.mp h.1 c hc) []
    rw [List.append_nil, singleBody, List.append_nil] at hbody
    rw [writeText, hs]
    simp only [hbody, List.cons_append, List.length_cons, List.length_append, List.length_nil]
    omega
  · exact absurd (List.any_eq_false.mp h.1 '\n' hbreak) (by decide)

end Length

end DocSite.Yaml
