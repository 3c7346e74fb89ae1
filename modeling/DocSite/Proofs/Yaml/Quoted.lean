import DocSite.Proofs.Yaml.Gap
import Mathlib.Algebra.Group.Nat.Defs
import Mathlib.Data.List.Basic

namespace DocSite.Yaml

section Escape

theorem hexValue?_upperDigit {d : Nat} (h : d < 16) :
    Link.hexValue? (Nat.digitChar d).toUpper = some d := by
  revert d
  decide

theorem hexNumber?_append (n : Nat) (a b : List Char) :
    hexNumber? n (a ++ b) = (hexNumber? n a).bind fun m => hexNumber? m b := by
  induction a generalizing n with
  | nil => rfl
  | cons c r ih =>
    rw [List.cons_append, hexNumber?, hexNumber?]
    cases Link.hexValue? c with
    | none => rfl
    | some d => exact ih _

theorem length_upperDigits (width n : Nat) : (upperDigits width n).length = width := by
  induction width generalizing n with
  | zero => rfl
  | succ width ih => simp [upperDigits, ih]

theorem hexNumber?_upperDigits {width n : Nat} (h : n < 16 ^ width) :
    hexNumber? 0 (upperDigits width n) = some n := by
  induction width generalizing n with
  | zero =>
    obtain rfl : n = 0 := by simpa using h
    rfl
  | succ width ih =>
    have hdigit := hexValue?_upperDigit (Nat.mod_lt n (show 0 < 16 by decide))
    rw [upperDigits, hexNumber?_append, ih (by omega), Option.bind_some, hexNumber?, hdigit]
    simp [hexNumber?, Nat.div_add_mod]

theorem charOf?_toNat (c : Char) : charOf? c.toNat = some c := by
  have hvalid := c.valid
  have hrange : ¬((0xd800 ≤ c.toNat ∧ c.toNat ≤ 0xdfff) ∨ 0x10ffff < c.toNat) := by
    rcases hvalid with h | h
    · have : c.toNat < 0xd800 := h
      omega
    · have : 0xdfff < c.toNat := h.1
      have : c.toNat < 0x110000 := h.2
      omega
  rw [charOf?, if_neg hrange, Char.ofNat_toNat]

variable (line column index : Nat)

theorem readEscape_code {letter : Char} {width : Nat} (hletter : escapes.lookup letter = none)
    (hwidth : codeLength? letter = some width) {c : Char} (hc : c.toNat < 16 ^ width)
    (rest : List Char) :
    readEscape ⟨'\\' :: letter :: (upperDigits width c.toNat ++ rest), line, column, index⟩ =
      some (c, ⟨rest, line, column + (2 + width), index + (2 + width)⟩) := by
  have hlen := length_upperDigits width c.toNat
  have htake : (upperDigits width c.toNat ++ rest).take width = upperDigits width c.toNat := by
    rw [List.take_left' hlen]
  have hdrop : ('\\' :: letter :: (upperDigits width c.toNat ++ rest)).drop (2 + width) = rest := by
    rw [Nat.add_comm, List.drop_succ_cons, List.drop_succ_cons, List.drop_left' hlen]
  simp only [readEscape, hletter, hwidth, htake, hlen, Nat.lt_irrefl, if_false,
    hexNumber?_upperDigits hc, Option.bind_some, charOf?_toNat, Option.map_some, Cursor.skip, hdrop]

theorem escape_cases (c : Char) :
    (∃ letter, escape c = ['\\', letter] ∧ isBreak letter = false ∧
      escapes.lookup letter = some c) ∨
    (∃ letter width, escape c = '\\' :: letter :: upperDigits width c.toNat ∧
      isBreak letter = false ∧ escapes.lookup letter = none ∧ codeLength? letter = some width ∧
      c.toNat < 16 ^ width) := by
  have hshort {n : Nat} (letter : Char) (h : c.toNat = n) (hn : isBreak letter = false ∧
      escapes.lookup letter = some (Char.ofNat n)) :
      isBreak letter = false ∧ escapes.lookup letter = some c := by
    rw [← h, Char.ofNat_toNat] at hn
    exact hn
  unfold escape
  split
  case h_16 =>
    split
    case isTrue h => exact .inr ⟨'x', 2, rfl, rfl, rfl, rfl, by omega⟩
    case isFalse =>
      split
      case isTrue h => exact .inr ⟨'u', 4, rfl, rfl, rfl, rfl, by omega⟩
      case isFalse =>
        have : c.toNat < 0x110000 := by
          rcases c.valid with h | h
          · exact Nat.lt_trans h (by decide)
          · exact h.2
        exact .inr ⟨'U', 8, rfl, rfl, rfl, rfl, by omega⟩
  all_goals exact .inl ⟨_, rfl, hshort _ ‹_› ⟨rfl, rfl⟩⟩

theorem readEscape_escape (c : Char) (rest : List Char) :
    readEscape ⟨escape c ++ rest, line, column, index⟩ =
      some (c, ⟨rest, line, column + (escape c).length, index + (escape c).length⟩) := by
  rcases escape_cases c with ⟨letter, hc, _, hletter⟩ | ⟨letter, width, hc, _, hletter, hwidth, hn⟩
  · rw [hc]
    simp [readEscape, hletter, Cursor.skip]
  · rw [hc, List.cons_append, List.cons_append, readEscape_code line column index hletter hwidth hn]
    simp [length_upperDigits, Nat.add_comm 2 width]

end Escape

section Quoted

/-- A character of a word in quotes is written as `unit`. -/
def ReadsUnit (quote : Quote) (unit : List Char) (c : Char) : Prop :=
  ∀ fuel word rest line column index,
    readQuotedWord quote (fuel + 1) word ⟨unit ++ rest, line, column, index⟩ =
      readQuotedWord quote fuel (c :: word) ⟨rest, line, column + unit.length, index + unit.length⟩

def EndsWord (quote : Quote) (rest : List Char) : Prop :=
  ∀ fuel word line column index, readQuotedWord quote (fuel + 1) word ⟨rest, line, column, index⟩ =
    some (word, false, ⟨rest, line, column, index⟩)

variable {quote : Quote} {unit : Char → List Char}

theorem EndsWord.gap {x : Char} (h : isBlank x ∨ isBreak x) (rest : List Char) :
    EndsWord quote (x :: rest) := by
  intro fuel word line column index
  rcases h with h | h <;> simp [readQuotedWord, h]

theorem ReadsUnit.ne_nil {unit : List Char} {c : Char} (h : ReadsUnit quote unit c) :
    unit ≠ [] := by
  rintro rfl
  have := h 0 [] [] 0 0 0
  simp [readQuotedWord] at this

theorem length_le_flatMap_units {w : List Char} (h : ∀ c ∈ w, ReadsUnit quote (unit c) c) :
    w.length ≤ (w.flatMap unit).length := by
  induction w with
  | nil => simp
  | cons c r ih =>
    rw [List.forall_mem_cons] at h
    have hpos := List.length_pos_iff.mpr h.1.ne_nil
    have hr := ih h.2
    simp only [List.flatMap_cons, List.length_append, List.length_cons]
    omega

theorem readQuotedWord_unitsFrom {w : List Char} (h : ∀ c ∈ w, ReadsUnit quote (unit c) c)
    {rest : List Char} (hrest : EndsWord quote rest) {fuel : Nat} (hfuel : w.length < fuel)
    (word : List Char) (line column index : Nat) :
    readQuotedWord quote fuel word ⟨w.flatMap unit ++ rest, line, column, index⟩ =
      some (w.reverse ++ word, false,
        ⟨rest, line, column + (w.flatMap unit).length, index + (w.flatMap unit).length⟩) := by
  induction w generalizing fuel word column index with
  | nil =>
    obtain ⟨fuel, rfl⟩ := Nat.exists_eq_add_of_lt hfuel
    exact hrest _ _ _ _ _
  | cons c r ih =>
    rw [List.forall_mem_cons] at h
    cases fuel with
    | zero => simp at hfuel
    | succ fuel =>
      rw [List.flatMap_cons, List.append_assoc, h.1, ih h.2 (by simpa using hfuel)]
      simp [Nat.add_assoc]

variable {c c' : Cursor} {text text' : List Char}

theorem readQuotedWord_units {w : List Char} (h : ∀ c ∈ w, ReadsUnit quote (unit c) c)
    {rest : List Char} (hrest : EndsWord quote rest) (hc : c.rest = w.flatMap unit ++ rest) :
    readQuotedWord quote (c.rest.length + 1) text c =
      some (w.reverse ++ text, false, c.skip (w.flatMap unit).length) := by
  have hlen := length_le_flatMap_units h
  obtain ⟨_, line, column, index⟩ := c
  obtain rfl : _ = _ := hc
  rw [readQuotedWord_unitsFrom h hrest (by simp only [List.length_append]; omega), Cursor.skip,
    List.drop_left]

/-- A text in quotes, written word by word: spaces stand for themselves, and so do line breaks other
than the usual one, but the line after them is indented. -/
inductive Quoted (quote : Quote) (unit : Char → List Char) : List Char → List Char → Prop
  | word {w : List Char} : (∀ c ∈ w, ReadsUnit quote (unit c) c) →
    Quoted quote unit w (w.flatMap unit)
  | spaces {w s body : List Char} {n : Nat} : (∀ c ∈ w, ReadsUnit quote (unit c) c) →
    (∀ rest, EndsGap (body ++ quote.sign :: rest)) → Quoted quote unit s body →
    Quoted quote unit (w ++ spaces (n + 1) ++ s) (w.flatMap unit ++ (spaces (n + 1) ++ body))
  | breaks {w s body : List Char} {b : Char} {bs : List Char} {n : Nat} :
    (∀ c ∈ w, ReadsUnit quote (unit c) c) → (∀ b' ∈ b :: bs, isBreak b' ∧ isPrintable b') →
    b ≠ '\n' → (∀ rest, EndsGap (body ++ quote.sign :: rest)) → (body = [] ∨ n ≠ 0) →
    Quoted quote unit s body →
    Quoted quote unit (w ++ b :: bs ++ s) (w.flatMap unit ++ (b :: bs ++ (Yaml.spaces n ++ body)))

variable {w rest : List Char}

theorem readQuotedRest_close (hboundary : c.isDocumentBoundary = false)
    (hw : ∀ c ∈ w, ReadsUnit quote (unit c) c) (hclose : EndsWord quote (quote.sign :: rest))
    (hc : c.rest = w.flatMap unit ++ quote.sign :: rest) (fuel : Nat) :
    readQuotedRest quote (fuel + 1) text c =
      some (text.reverse ++ w, (c.skip (w.flatMap unit).length).next) := by
  have hsign : (c.skip (w.flatMap unit).length).peek? = some quote.sign := by
    rw [Cursor.peek?, Cursor.rest_skip hc]
    rfl
  have hne : c.rest ≠ [] := by simp [hc]
  rw [readQuotedRest, readQuotedWord_units hw hclose hc]
  simp only [hboundary, Bool.false_or, List.isEmpty_iff, hne, if_false, hsign, if_true]
  simp

theorem readQuotedRest_gap (hboundary : c.isDocumentBoundary = false)
    (hw : ∀ c ∈ w, ReadsUnit quote (unit c) c) {x : Char} (hx : isBlank x ∨ isBreak x)
    (hc : c.rest = w.flatMap unit ++ x :: rest) {g : Gap} {c' : Cursor}
    (hgap : readGap 0 ((c.skip (w.flatMap unit).length).rest.length + 1) .empty
      (c.skip (w.flatMap unit).length) = some (g, c')) (fuel : Nat) :
    readQuotedRest quote (fuel + 1) text c =
      readQuotedRest quote fuel (g.text.reverse ++ (w.reverse ++ text)) c' := by
  have hrest := Cursor.rest_skip hc
  have hsign : (c.skip (w.flatMap unit).length).peek? ≠ some quote.sign := by
    rw [Cursor.peek?, hrest, List.head?_cons, Ne, Option.some.injEq]
    rintro rfl
    cases quote <;> simp [Quote.sign, isBlank, isBreak] at hx
  have hne : c.rest ≠ [] := by simp [hc]
  rw [readQuotedRest, readQuotedWord_units hw (.gap hx rest) hc]
  simp only [hboundary, Bool.false_or, List.isEmpty_iff, hne, if_false, hsign, hgap,
    Bool.false_eq_true]

theorem isDocumentBoundary_of_quoted {body : List Char} (hc : c.rest = body ++ quote.sign :: rest)
    (hcolumn : body = [] ∨ c.column ≠ 0) : c.isDocumentBoundary = false := by
  rcases hcolumn with rfl | hcolumn
  · cases quote <;> exact Cursor.isDocumentBoundary_of_rest hc (by decide) (by decide)
  · exact Cursor.isDocumentBoundary_of_column hcolumn

theorem readQuotedRest_of_quoted {s body : List Char} (h : Quoted quote unit s body)
    (hclose : EndsWord quote (quote.sign :: rest)) {fuel : Nat} (hfuel : s.length < fuel)
    (hc : c.rest = body ++ quote.sign :: rest) (hcolumn : body = [] ∨ c.column ≠ 0)
    (text : List Char) :
    ∃ c', readQuotedRest quote fuel text c = some (text.reverse ++ s, c') ∧
      c.Past (body ++ [quote.sign]) c' := by
  have hboundary := isDocumentBoundary_of_quoted hc hcolumn
  obtain ⟨fuel, rfl⟩ := Nat.exists_eq_add_one_of_ne_zero (Nat.ne_zero_of_lt hfuel)
  induction h generalizing fuel text c with
  | word hw =>
    exact ⟨_, readQuotedRest_close hboundary hw hclose hc fuel,
      (Cursor.past_skip hc).trans (Cursor.past_skip (w := [quote.sign]) (Cursor.rest_skip hc))⟩
  | @spaces w s body n hw hends _ ih =>
    have hc : c.rest = w.flatMap unit ++ (spaces (n + 1) ++ (body ++ quote.sign :: rest)) := by
      simpa using hc
    have hlen : (spaces (n + 1)).length = n + 1 := length_spaces _
    have hgap := Cursor.rest_skip hc
    have hnext := Cursor.rest_skip hgap
    have hpast := (Cursor.past_skip hc).trans (Cursor.past_skip hgap)
    have hcolumn : ((c.skip (w.flatMap unit).length).skip (spaces (n + 1)).length).column ≠ 0 := by
      simp [Cursor.skip, hlen]
    simp only [List.length_append, hlen] at hfuel
    obtain ⟨fuel, rfl⟩ := Nat.exists_eq_add_one_of_ne_zero (n := fuel) (by omega)
    obtain ⟨c', hread, hpast'⟩ := ih hnext (.inr hcolumn)
      ((spaces (n + 1)).reverse ++ (w.reverse ++ text))
      (Cursor.isDocumentBoundary_of_column hcolumn) fuel (by omega)
    refine ⟨c', ?_, by simpa using hpast.trans hpast'⟩
    rw [readQuotedRest_gap hboundary hw (.inl rfl) hc
      (readGap_spaces (hends rest) 0 (by rw [hgap, List.length_append]; omega) .empty hgap)]
    rw [hlen] at hread
    simpa [Gap.text, Gap.empty] using hread
  | @breaks w s body b bs n hw hbs hb hends hn _ ih =>
    have hc : c.rest = w.flatMap unit ++
        (b :: bs ++ (Yaml.spaces n ++ (body ++ quote.sign :: rest))) := by simpa using hc
    have hrest := Cursor.rest_skip hc
    obtain ⟨c₁, hgap, hpast, hcolumn, _⟩ :=
      readGap_breaks (g := .empty) (hends rest) hbs 0 rfl hrest
    have hnext := hpast.rest_eq (hrest.trans (List.append_assoc _ _ _).symm)
    rw [← hcolumn] at hn
    simp only [List.length_append, List.length_cons] at hfuel
    obtain ⟨fuel, rfl⟩ := Nat.exists_eq_add_one_of_ne_zero (n := fuel) (by omega)
    obtain ⟨c', hread, hpast'⟩ := ih hnext hn ((b :: bs).reverse ++ (w.reverse ++ text))
      (isDocumentBoundary_of_quoted hnext hn) fuel (by omega)
    refine ⟨c', ?_, by simpa using ((Cursor.past_skip hc).trans hpast).trans hpast'⟩
    rw [readQuotedRest_gap hboundary hw (.inr (hbs b (by simp)).1) hc hgap]
    simpa [Gap.text, hb] using hread

theorem Quoted.length_le {s body : List Char} (h : Quoted quote unit s body) :
    s.length ≤ body.length := by
  induction h with
  | word hw => exact length_le_flatMap_units hw
  | spaces hw _ _ ih =>
    have := length_le_flatMap_units hw
    simp only [List.length_append]
    omega
  | breaks hw _ _ _ _ _ ih =>
    have := length_le_flatMap_units hw
    simp only [List.length_append]
    omega

theorem readQuoted_of_quoted {s body : List Char} (h : Quoted quote unit s body)
    (hclose : EndsWord quote (quote.sign :: rest))
    (hc : c.rest = quote.sign :: body ++ quote.sign :: rest) :
    ∃ c', readQuoted quote c = some (s, c') ∧ c.Past (quote.sign :: body ++ [quote.sign]) c' := by
  have hlen := h.length_le
  have hpast := Cursor.past_skip (w := [quote.sign]) hc
  obtain ⟨c', hread, hpast'⟩ := readQuotedRest_of_quoted h hclose
    (show s.length < c.rest.length + 1 by simp [hc]; omega)
    (Cursor.rest_skip (w := [quote.sign]) hc) (.inr (by simp [Cursor.skip])) []
  exact ⟨c', hread, hpast.trans hpast'⟩

end Quoted

section Double

def doubleUnit (marked : Bool) (c : Char) : List Char :=
  if marked || !isPrintable c || isBreak c || c == '"' || c == '\\' then escape c else [c]

theorem writeDouble_eq (s : List Char) :
    writeDouble s = '"' :: s.flatMap (doubleUnit (s.head? == some '\uFEFF')) ++ ['"'] := rfl

def isBareSpace (marked : Bool) (c : Char) : Bool := !marked && isSpace c

variable (marked : Bool)

theorem doubleUnit_of_isBareSpace {c : Char} (h : isBareSpace marked c) :
    doubleUnit marked c = [c] := by
  simp only [isBareSpace, isSpace, Bool.and_eq_true, Bool.not_eq_true', beq_iff_eq] at h
  obtain ⟨rfl, rfl⟩ := h
  rfl

theorem doubleUnit_cases {c : Char} (h : isBareSpace marked c = false) :
    doubleUnit marked c = escape c ∨
      (doubleUnit marked c = [c] ∧ isBlank c = false ∧ isBreak c = false ∧ c ≠ '"' ∧ c ≠ '\\') := by
  unfold doubleUnit
  split
  case isTrue => exact .inl rfl
  case isFalse hraw =>
    simp only [Bool.or_eq_true, Bool.not_eq_true', not_or, Bool.not_eq_true, beq_iff_eq] at hraw
    obtain ⟨⟨⟨⟨hmarked, hprint⟩, hbreak⟩, hquote⟩, hslash⟩ := hraw
    refine .inr ⟨rfl, ?_, hbreak, hquote, hslash⟩
    have hspace : c ≠ ' ' := by simpa [isBareSpace, hmarked, isSpace] using h
    have htab : c ≠ '\t' := by
      rintro rfl
      simp [isPrintable] at hprint
    simp [isBlank, hspace, htab]

theorem readsUnit_escape (c : Char) : ReadsUnit .double (escape c) c := by
  intro fuel word rest line column index
  have hread := readEscape_escape line column index c rest
  obtain ⟨letter, digits, hescape, hletter⟩ :
      ∃ letter digits, escape c = '\\' :: letter :: digits ∧ isBreak letter = false := by
    rcases escape_cases c with ⟨letter, hc, hletter, _⟩ | ⟨letter, _, hc, hletter, _⟩
    · exact ⟨letter, [], hc, hletter⟩
    · exact ⟨letter, _, hc, hletter⟩
  rw [hescape] at hread ⊢
  simp only [List.cons_append] at hread ⊢
  simp [readQuotedWord, show isBlank '\\' = false from rfl, show isBreak '\\' = false from rfl,
    hletter, hread]

theorem readsUnit_doubleUnit {c : Char} (h : isBareSpace marked c = false) :
    ReadsUnit .double (doubleUnit marked c) c := by
  rcases doubleUnit_cases marked h with hc | ⟨hc, hblank, hbreak, hquote, hslash⟩
  · rw [hc]
    exact readsUnit_escape c
  · rw [hc]
    intro fuel word rest line column index
    simp [readQuotedWord, hblank, hbreak, hquote, hslash, Cursor.next, Cursor.skip]

theorem endsGap_doubleUnits {s : List Char} (h : ∀ c ∈ s.head?, isBareSpace marked c = false)
    (rest : List Char) : EndsGap (s.flatMap (doubleUnit marked) ++ '"' :: rest) := by
  cases s with
  | nil => simp [EndsGap, isBlank, isBreak]
  | cons c r =>
    rcases doubleUnit_cases marked (h c rfl) with hc | ⟨hc, hblank, hbreak, _⟩
    · simp [EndsGap, hc, escape, isBlank, isBreak]
    · simp [EndsGap, hc, hblank, hbreak]

theorem quoted_double (s : List Char) :
    Quoted .double (doubleUnit marked) s (s.flatMap (doubleUnit marked)) := by
  induction s using words_ind (isBareSpace marked) with
  | word w hw => exact .word fun c hc => readsUnit_doubleUnit marked (hw c hc)
  | gap w g s hw hne hg hs ih =>
    have hspaces : g.flatMap (doubleUnit marked) = g := by
      rw [List.flatMap_congr fun c hc => doubleUnit_of_isBareSpace marked (hg c hc)]
      simp
    obtain ⟨n, rfl⟩ := exists_eq_spaces hne fun c hc => (Bool.and_eq_true_iff.mp (hg c hc)).2
    rw [List.flatMap_append, List.flatMap_append, hspaces, List.append_assoc (w.flatMap _)]
    have hunits : ∀ c ∈ w, ReadsUnit .double (doubleUnit marked c) c := fun c hc =>
      readsUnit_doubleUnit marked (hw c hc)
    exact .spaces hunits (endsGap_doubleUnits marked hs) ih

theorem endsWord_double (rest : List Char) : EndsWord .double ('"' :: rest) := by
  intro fuel word line column index
  simp [readQuotedWord]

end Double

section Single

def singleUnit (c : Char) : List Char := if c = '\'' then ['\'', '\''] else [c]

theorem readsUnit_singleUnit {c : Char} (h : isGapChar c = false) :
    ReadsUnit .single (singleUnit c) c := by
  obtain ⟨hblank, hbreak⟩ := Bool.or_eq_false_iff.mp h
  intro fuel word rest line column index
  unfold singleUnit
  split
  case isTrue hc => simp [hc, readQuotedWord, isBlank, isBreak, Cursor.skip]
  case isFalse hc => simp [hc, readQuotedWord, hblank, hbreak, Cursor.next, Cursor.skip]

theorem endsWord_single {rest : List Char} (h : rest.head? ≠ some '\'') :
    EndsWord .single ('\'' :: rest) := by
  intro fuel word line column index
  simp [readQuotedWord, h, isBlank, isBreak]

variable (indent : Nat)

theorem singleBody_line {w : List Char} (h : ∀ c ∈ w, isBreak c = false) (s : List Char) :
    singleBody indent false (w ++ s) = w.flatMap singleUnit ++ singleBody indent false s := by
  induction w with
  | nil => rfl
  | cons c r ih =>
    rw [List.forall_mem_cons] at h
    simp [singleBody, h.1, singleUnit, ih h.2]

theorem singleBody_spaces (n : Nat) (s : List Char) :
    singleBody indent false (spaces n ++ s) = spaces n ++ singleBody indent false s := by
  induction n with
  | zero => rfl
  | succ n ih =>
    rw [spaces] at ih ⊢
    simp [singleBody, List.replicate_succ, ih, show isBreak ' ' = false from rfl]

theorem singleBody_breaks {b : Char} {bs : List Char} (h : ∀ c ∈ b :: bs, isBreak c) (broken : Bool)
    (s : List Char) :
    singleBody indent broken (b :: bs ++ s) = b :: bs ++ singleBody indent true s := by
  induction bs generalizing b broken with
  | nil => simp [singleBody, h b (by simp)]
  | cons d bs ih =>
    rw [List.forall_mem_cons] at h
    rw [List.cons_append, singleBody, if_pos h.1, ih h.2]
    rfl

theorem singleBody_broken {s : List Char} (h : ∀ c ∈ s.head?, isGapChar c = false) :
    singleBody indent true s =
      spaces (if s.isEmpty then 0 else indent) ++ singleBody indent false s := by
  cases s with
  | nil => rfl
  | cons c r =>
    obtain ⟨hblank, hbreak⟩ := Bool.or_eq_false_iff.mp (h c rfl)
    have hspace : isSpace c = false := (Bool.or_eq_false_iff.mp hblank).1
    simp [singleBody, hspace, hbreak]

theorem endsGap_singleBody {s : List Char} (h : ∀ c ∈ s.head?, isGapChar c = false)
    (rest : List Char) : EndsGap (singleBody indent false s ++ '\'' :: rest) := by
  cases s with
  | nil => simp [singleBody, EndsGap, isBlank, isBreak]
  | cons c r =>
    obtain ⟨hblank, hbreak⟩ := Bool.or_eq_false_iff.mp (h c rfl)
    by_cases hc : c = '\''
    · simp [singleBody, hc, EndsGap, isBlank, isBreak]
    · simp [singleBody, hbreak, hc, EndsGap, hblank]

theorem hasPair_cons {p q : Char → Bool} {x : Char} {s : List Char}
    (h : hasPair p q (x :: s) = false) : hasPair p q s = false := by
  cases s with
  | nil => rfl
  | cons y r => exact (Bool.or_eq_false_iff.mp h).2

theorem hasPair_append_right {p q : Char → Bool} {a b : List Char}
    (h : hasPair p q (a ++ b) = false) : hasPair p q b = false := by
  induction a with
  | nil => exact h
  | cons x r ih => exact ih (hasPair_cons h)

theorem forall_of_hasPair {p q : Char → Bool} {x : Char} {g s : List Char}
    (h : hasPair p q (x :: g ++ s) = false) (hx : p x) (hg : ∀ c ∈ g, p c ∨ q c) :
    ∀ c ∈ x :: g, p c := by
  induction g generalizing x with
  | nil => simpa using hx
  | cons y r ih =>
    rw [List.forall_mem_cons] at hg
    have hq : (p x && q y) = false := (Bool.or_eq_false_iff.mp h).1
    have hy : p y := hg.1.resolve_right fun hq' => by simp [hx, hq'] at hq
    rw [List.forall_mem_cons]
    exact ⟨hx, ih (hasPair_cons h) hy hg.2⟩

theorem forall_isSpace_or_isBreak {g s : List Char} (hg : ∀ c ∈ g, isSpace c ∨ isBreak c)
    (hspaceBreak : hasPair isSpace isBreak (g ++ s) = false)
    (hbreakSpace : hasPair isBreak isSpace (g ++ s) = false) :
    (∀ c ∈ g, isSpace c) ∨ ∀ c ∈ g, isBreak c := by
  cases g with
  | nil => exact .inl (List.forall_mem_nil _)
  | cons x g =>
    rw [List.forall_mem_cons] at hg
    rcases hg.1 with hx | hx
    · exact .inl (forall_of_hasPair hspaceBreak hx hg.2)
    · exact .inr (forall_of_hasPair hbreakSpace hx fun c hc => (hg.2 c hc).symm)

theorem quoted_single {s : List Char} (h : singleAllowed s) (hn : '\n' ∉ s) (hindent : indent ≠ 0) :
    Quoted .single singleUnit s (singleBody indent false s) := by
  simp only [singleAllowed, Bool.not_eq_true', Bool.or_eq_false_iff] at h
  obtain ⟨⟨⟨hbreakSpace, hspaceBreak⟩, htab⟩, hspecial⟩ := h
  have hprint : ∀ c ∈ s, isPrintable c := by
    intro c hc
    have htab' : c ≠ '\t' := by
      rintro rfl
      simp [hc] at htab
    simpa [htab'] using (List.any_eq_false.mp hspecial) c hc
  clear htab hspecial
  induction s using words_ind isGapChar with
  | word w hw =>
    have hbody := singleBody_line indent (fun c hc => (Bool.or_eq_false_iff.mp (hw c hc)).2) []
    rw [List.append_nil, singleBody, List.append_nil] at hbody
    exact hbody ▸ .word fun c hc => readsUnit_singleUnit (hw c hc)
  | gap w g s hw hne hg hs ih =>
    rw [List.append_assoc] at hn hprint hbreakSpace hspaceBreak ⊢
    have ih := ih (by simp_all) (hasPair_append_right (hasPair_append_right hbreakSpace))
      (hasPair_append_right (hasPair_append_right hspaceBreak)) (by simp_all)
    have hunits : ∀ c ∈ w, ReadsUnit .single (singleUnit c) c := fun c hc =>
      readsUnit_singleUnit (hw c hc)
    have hprint : ∀ c ∈ g, isPrintable c := fun c hc => hprint c (by simp [hc])
    have hkinds : ∀ c ∈ g, isSpace c ∨ isBreak c := by
      intro c hc
      have htab : c ≠ '\t' := by
        rintro rfl
        exact absurd (hprint _ hc) (by decide)
      simpa [isGapChar, isBlank, htab, isSpace] using hg c hc
    rw [singleBody_line indent fun c hc => (Bool.or_eq_false_iff.mp (hw c hc)).2]
    rcases forall_isSpace_or_isBreak hkinds (hasPair_append_right hspaceBreak)
      (hasPair_append_right hbreakSpace) with hspaces | hbreaks
    · obtain ⟨n, rfl⟩ := exists_eq_spaces hne hspaces
      rw [singleBody_spaces, ← List.append_assoc]
      exact .spaces hunits (endsGap_singleBody indent hs) ih
    · obtain ⟨b, bs, rfl⟩ := List.exists_cons_of_ne_nil hne
      rw [singleBody_breaks indent hbreaks, singleBody_broken indent hs, ← List.append_assoc]
      refine .breaks hunits (fun b hb => ⟨hbreaks b hb, hprint b hb⟩) ?_
        (endsGap_singleBody indent hs) ?_ ih
      · rintro rfl
        simp at hn
      · cases s with
        | nil => exact .inl rfl
        | cons => exact .inr hindent

end Single

end DocSite.Yaml
