import DocSite.Proofs.Yaml.Gap

namespace DocSite.Yaml

section Plain

def afterWord (indent fuel : Nat) (text : List Char) (c : Cursor) :
    Option (List Char × Bool × Cursor) :=
  if c.rest.isEmpty || !c.isGapAt 0 then some (text.reverse, false, c)
  else match readGap indent (c.rest.length + 1) .empty c with
    | none => none
    | some (gap, c) =>
      if c.column < indent then some (text.reverse, gap.broken, c)
      else readPlainRest false indent fuel text gap c

variable {c c' : Cursor} {indent : Nat}

theorem readPlainRest_word (hboundary : c.isDocumentBoundary = false)
    (hcomment : c.rest.head? ≠ some '#') {w : List Char} (hw : readPlainWord false [] c.rest = w)
    (hne : w ≠ []) (fuel : Nat) (text : List Char) (gap : Gap) :
    readPlainRest false indent (fuel + 1) text gap c =
      afterWord indent fuel (w ++ gap.text.reverse ++ text) (c.skip w.length) := by
  have hfirst : (c.isDocumentBoundary || c.peek? == some '#') = false := by
    simp [hboundary, Cursor.peek?, hcomment]
  have hw' : w.isEmpty = false := by simpa using hne
  simp only [readPlainRest, hfirst, hw, hw', Bool.false_eq_true, if_false, Bool.not_false,
    Bool.true_and, decide_eq_true_eq]
  rfl

theorem readPlainWord_word {w tail : List Char} {before : Char}
    (hw : ∀ c ∈ w, isGapChar c = false) (hbreak : ∀ c ∈ tail, isBreak c = false)
    (hinner : hasInnerIndicator before (w ++ tail) = false) (word rest : List Char) :
    readPlainWord false word (w ++ (tail ++ rest)) =
      readPlainWord false (w.reverse ++ word) (tail ++ rest) := by
  induction w generalizing before word with
  | nil => rfl
  | cons c r ih =>
    rw [List.forall_mem_cons] at hw
    obtain ⟨hgap, hr⟩ := hw
    rw [List.cons_append, hasInnerIndicator] at hinner
    obtain ⟨hsign, hinner⟩ := Bool.or_eq_false_iff.mp hinner
    -- a colon inside a text is followed by something other than a gap
    have hends : (c == ':' &&
        ((r ++ (tail ++ rest)).head?.map fun n => isBlank n || isBreak n).getD true) = false := by
      by_cases hc : c = ':'
      · cases hnext : r ++ tail with
        | nil => simp [hc, hnext] at hsign
        | cons y t =>
          have hblank : isBlank y = false := by simpa [hc, hnext] using hsign
          have hy : isBreak y = false := by
            have hmem : y ∈ r ++ tail := by simp [hnext]
            rcases List.mem_append.mp hmem with hy | hy
            · exact (Bool.or_eq_false_iff.mp (hr y hy)).2
            · exact hbreak y hy
          simp [← List.append_assoc, hnext, hblank, hy]
      · simp [hc]
    have hgap : (isBlank c || isBreak c) = false := hgap
    rw [List.cons_append, readPlainWord, hends, hgap]
    simpa using ih hr hinner (c :: word)

def EndsPlainWord (rest : List Char) : Prop := ∀ word, readPlainWord false word rest = word

theorem hasInnerIndicator_append {a r : List Char} {before x : Char}
    (h : hasInnerIndicator before (a ++ x :: r) = false) : hasInnerIndicator x r = false := by
  induction a generalizing before with
  | nil => exact (Bool.or_eq_false_iff.mp h).2
  | cons y t ih => exact ih (Bool.or_eq_false_iff.mp h).2

/-- Words on one line in which no sign starts anything else, from the beginning of a word to the end
of one. -/
structure PlainWords (s : List Char) : Prop where
  first : ∃ x r, s = x :: r ∧ isGapChar x = false
  last : ∀ x ∈ s.getLast?, isSpace x = false
  chars : ∀ x ∈ s, x ≠ '\t' ∧ isBreak x = false
  inner : hasInnerIndicator ' ' s = false

theorem PlainWords.head?_ne_comment {s : List Char} (h : PlainWords s) (rest : List Char) :
    (s ++ rest).head? ≠ some '#' := by
  have hinner := h.inner
  obtain ⟨x, r, rfl, _⟩ := h.first
  rintro hx
  obtain rfl : x = '#' := by simpa using hx
  simp [hasInnerIndicator, isBlank] at hinner

theorem PlainWords.of_gap {w s : List Char} {n : Nat} (h : PlainWords (w ++ spaces (n + 1) ++ s))
    (hs : ∀ c ∈ s.head?, isGapChar c = false) : PlainWords s where
  first := by
    cases s with
    | nil => simpa [spaces, List.replicate_succ', isSpace] using h.last
    | cons x r => exact ⟨x, r, rfl, hs x rfl⟩
  last := fun x hx => h.last x (by simp_all)
  chars := fun x hx => h.chars x (by simp [hx])
  inner := by
    have hinner := h.inner
    rw [List.append_assoc, ← spaces_append_cons, ← List.append_assoc] at hinner
    exact hasInnerIndicator_append hinner

theorem PlainWords.word_ne_nil {w g s : List Char} (h : PlainWords (w ++ g ++ s))
    (hg : ∀ x ∈ (g ++ s).head?, isGapChar x) : w ≠ [] := by
  rintro rfl
  obtain ⟨x, r, hr, hx⟩ := h.first
  have hhead : isGapChar x := hg x (by simp_all)
  rw [hx] at hhead
  exact Bool.false_ne_true hhead

theorem PlainWords.endsGap {s : List Char} (h : PlainWords s) (rest : List Char) :
    EndsGap (s ++ rest) := by
  obtain ⟨x, r, rfl, hx⟩ := h.first
  simpa [EndsGap] using Bool.or_eq_false_iff.mp hx

theorem PlainWords.readPlainWord_last {w rest : List Char} (h : PlainWords w)
    (hw : ∀ x ∈ w, isGapChar x = false) (hrest : EndsPlainWord rest) :
    readPlainWord false [] (w ++ rest) = w.reverse := by
  have hinner : hasInnerIndicator ' ' (w ++ []) = false := by simpa using h.inner
  have hword := readPlainWord_word hw (List.forall_mem_nil _) hinner [] rest
  rwa [List.append_nil, List.nil_append, hrest] at hword

theorem PlainWords.readPlainWord_gap {w s : List Char} {n : Nat}
    (h : PlainWords (w ++ spaces (n + 1) ++ s)) (hw : ∀ x ∈ w, isGapChar x = false)
    (rest : List Char) :
    readPlainWord false [] (w ++ (spaces (n + 1) ++ (s ++ rest))) = w.reverse := by
  have htail : ∀ x ∈ spaces (n + 1) ++ s, isBreak x = false := fun x hx =>
    (h.chars x (by rw [List.append_assoc]; exact List.mem_append_right w hx)).2
  rw [← List.append_assoc (spaces _), readPlainWord_word hw htail (by simpa using h.inner)]
  simp [spaces, List.replicate_succ, readPlainWord, isBlank]

theorem afterWord_spaces {n : Nat} {rest : List Char} (h : EndsGap rest)
    (hindent : indent ≤ (c.skip (n + 1)).column) (hc : c.rest = spaces (n + 1) ++ rest) (fuel : Nat)
    (text : List Char) :
    afterWord indent fuel text c =
      readPlainRest false indent fuel text ⟨spaces (n + 1), false, [], []⟩ (c.skip (n + 1)) := by
  have hroom : n + 1 < c.rest.length + 1 := by
    simp only [hc, List.length_append, length_spaces]
    omega
  have hgapAt : c.isGapAt 0 := by
    simp [Cursor.isGapAt, hc, spaces, List.replicate_succ, isBlank]
  have hne : spaces (n + 1) ≠ [] := by simp [spaces]
  rw [afterWord, readGap_spaces h indent hroom .empty hc]
  simp [hc, hgapAt, hne, Nat.not_lt.mpr hindent, Gap.empty]

theorem readPlainRest_text {s rest : List Char} (h : PlainWords s) (hrest : EndsPlainWord rest)
    (hboundary : c.isDocumentBoundary = false) (hindent : indent ≤ c.column + 1) {fuel : Nat}
    (hfuel : s.length < fuel) (hc : c.rest = s ++ rest) {broken : Bool}
    (hend : ∀ fuel text, afterWord indent fuel text (c.skip s.length) =
      some (text.reverse, broken, c')) (text : List Char) {gap : Gap} (hgap : gap.broken = false) :
    readPlainRest false indent fuel text gap c =
      some (text.reverse ++ gap.spaces.reverse ++ s, broken, c') := by
  have hgapText (g : Gap) (h : g.broken = false) : g.text = g.spaces.reverse := by
    simp [Gap.text, h]
  have hcomment := hc ▸ h.head?_ne_comment rest
  obtain ⟨fuel, rfl⟩ := Nat.exists_eq_add_one_of_ne_zero (Nat.ne_zero_of_lt hfuel)
  induction s using words_ind isGapChar generalizing fuel text gap c with
  | word w hw =>
    have hne : w ≠ [] := PlainWords.word_ne_nil (g := []) (s := []) (by simpa using h) (by simp)
    have hword := hc ▸ h.readPlainWord_last hw hrest
    rw [readPlainRest_word hboundary hcomment hword (by simpa using hne), List.length_reverse, hend,
      hgapText _ hgap]
    simp
  | gap w g s hw hne hg hs ih =>
    obtain ⟨n, rfl⟩ := exists_eq_spaces hne fun x hx => by
      have hx' := h.chars x (by simp [hx])
      simpa [isGapChar, isBlank, isSpace, hx'.1, hx'.2] using hg x hx
    have hne : w ≠ [] := h.word_ne_nil (by simp [spaces, List.replicate_succ, isGapChar, isBlank])
    have hs := h.of_gap hs
    have hc' : c.rest = w ++ (spaces (n + 1) ++ (s ++ rest)) := by simpa using hc
    have hword := hc' ▸ h.readPlainWord_gap hw rest
    have hgapRest := Cursor.rest_skip hc'
    have hnext := Cursor.rest_skip hgapRest
    rw [length_spaces] at hnext
    have hcolumn : indent ≤ ((c.skip w.length).skip (n + 1)).column := by
      simp only [Cursor.skip]
      omega
    have hboundary' := Cursor.isDocumentBoundary_of_column (c := (c.skip w.length).skip (n + 1))
      (by simp [Cursor.skip])
    have hend' : ∀ fuel text, afterWord indent fuel text
        (((c.skip w.length).skip (n + 1)).skip s.length) = some (text.reverse, broken, c') := by
      simpa [Cursor.skip_skip, Nat.add_assoc] using hend
    have hlength : s.length + (w.length + (n + 1)) < fuel + 1 := by
      simpa [Nat.add_comm, Nat.add_left_comm] using hfuel
    obtain ⟨fuel, rfl⟩ := Nat.exists_eq_add_one_of_ne_zero (n := fuel) (by omega)
    rw [readPlainRest_word hboundary hcomment hword (by simpa using hne), List.length_reverse,
      afterWord_spaces (hs.endsGap rest) hcolumn hgapRest,
      ih hs hboundary' (Nat.le_succ_of_le hcolumn) hnext hend' _ rfl
        (hnext ▸ hs.head?_ne_comment rest) fuel (by omega), hgapText _ hgap]
    simp

variable {s rest : List Char}

theorem readPlain_text (h : PlainWords s) (hrest : EndsPlainWord rest)
    (hboundary : c.isDocumentBoundary = false) (hindent : indent ≤ c.column + 1)
    (hc : c.rest = s ++ rest) {broken : Bool}
    (hend : ∀ fuel text, afterWord indent fuel text (c.skip s.length) =
      some (text.reverse, broken, c')) :
    readPlain false indent c = some (s, broken, c') := by
  have hroom : s.length < c.rest.length + 1 := by
    simp only [hc, List.length_append]
    omega
  exact readPlainRest_text h hrest hboundary hindent hroom hc hend [] rfl

theorem readPlain_key (h : PlainWords s) (hboundary : c.isDocumentBoundary = false)
    (hindent : indent ≤ c.column + 1) {x : Char} (hx : isGapChar x)
    (hc : c.rest = s ++ ':' :: x :: rest) :
    readPlain false indent c = some (s, false, c.skip s.length) := by
  have hends : EndsPlainWord (':' :: x :: rest) := by
    have hx : (isBlank x || isBreak x) = true := hx
    intro word
    simp [readPlainWord, hx]
  have hend : ∀ fuel text, afterWord indent fuel text (c.skip s.length) =
      some (text.reverse, false, c.skip s.length) := by
    intro fuel text
    have hcolon : (c.skip s.length).isGapAt 0 = false := by
      rw [Cursor.isGapAt, Cursor.rest_skip hc]
      rfl
    simp [afterWord, hcolon]
  exact readPlain_text h hends hboundary hindent hc hend

theorem readPlain_line (h : PlainWords s) (hboundary : c.isDocumentBoundary = false)
    (hindent : indent ≤ c.column + 1) (hrest : EndsGap rest) {m : Nat} (hm : m < indent)
    (hc : c.rest = s ++ '\n' :: (spaces m ++ rest)) :
    ∃ c', readPlain false indent c = some (s, true, c') ∧ c.Past (s ++ '\n' :: spaces m) c' ∧
      c'.column = m ∧ c.line < c'.line := by
  have hends : EndsPlainWord ('\n' :: (spaces m ++ rest)) := by
    intro word
    simp [readPlainWord, isBreak]
  have hrest₁ := Cursor.rest_skip hc
  obtain ⟨c', hgap, hpast, hcolumn, hline⟩ := readGap_breaks (g := .empty) hrest
    (List.forall_mem_singleton.mpr (by decide : isBreak '\n' ∧ isPrintable '\n')) indent rfl hrest₁
  refine ⟨c', ?_, (Cursor.past_skip hc).trans hpast, hcolumn, hline⟩
  have hend : ∀ fuel text, afterWord indent fuel text (c.skip s.length) =
      some (text.reverse, true, c') := by
    intro fuel text
    have hgapAt : (c.skip s.length).isGapAt 0 := by
      rw [Cursor.isGapAt, hrest₁]
      rfl
    rw [afterWord, hgap]
    simp [hrest₁, hgapAt, hcolumn, hm]
  exact readPlain_text h hends hboundary hindent hc hend

end Plain

end DocSite.Yaml
