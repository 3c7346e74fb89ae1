import DocSite.Text.Order
import DocSite.Yaml.Lexeme
import DocSite.Yaml.Writer
import Mathlib.Data.List.TakeWhile

namespace DocSite.Yaml

theorem words_ind {motive : List Char → Prop} (p : Char → Bool)
    (word : ∀ w, (∀ c ∈ w, p c = false) → motive w)
    (gap : ∀ w g s, (∀ c ∈ w, p c = false) → g ≠ [] → (∀ c ∈ g, p c = true) →
      (∀ c ∈ s.head?, p c = false) → motive s → motive (w ++ g ++ s)) (s : List Char) :
    motive s := by
  induction hn : s.length using Nat.strongRecOn generalizing s with
  | ind n ih =>
    subst hn
    have hword : ∀ c ∈ s.takeWhile (!p ·), p c = false := by
      intro c hc
      simpa using List.mem_takeWhile_imp hc
    cases hr : s.dropWhile (!p ·) with
    | nil =>
      have hs := List.takeWhile_append_dropWhile (p := (!p ·)) (l := s)
      rw [hr, List.append_nil] at hs
      exact hs ▸ word _ hword
    | cons a r =>
      have hs : s.takeWhile (!p ·) ++ (a :: r).takeWhile p ++ (a :: r).dropWhile p = s := by
        rw [List.append_assoc, List.takeWhile_append_dropWhile, ← hr,
          List.takeWhile_append_dropWhile]
      have ha : p a = true := by
        have := List.head?_dropWhile_not (!p ·) s
        simpa [hr] using this
      rw [← hs]
      refine gap _ _ _ hword (by simp [ha]) (fun c hc => List.mem_takeWhile_imp hc) ?_ ?_
      · intro c hc
        have := List.head?_dropWhile_not p (a :: r)
        rw [Option.mem_def] at hc
        simpa [hc] using this
      · refine ih _ ?_ _ rfl
        have hlen := congrArg List.length hs
        simp only [List.length_append, List.takeWhile_cons, ha, if_true, List.length_cons] at hlen
        omega

section Cursor

structure Cursor.Past (c : Cursor) (written : List Char) (c' : Cursor) : Prop where
  rest : c.rest = written ++ c'.rest
  line : c.line ≤ c'.line
  index : c'.index = c.index + written.length
  inline : isMultiline written = false → c'.line = c.line ∧ c'.column = c.column + written.length

theorem Cursor.past_skip {c : Cursor} {w rest : List Char} (h : c.rest = w ++ rest) :
    c.Past w (c.skip w.length) := by
  refine ⟨?_, Nat.le_refl _, rfl, fun _ => ⟨rfl, rfl⟩⟩
  rw [Cursor.skip, h, List.drop_left]

theorem Cursor.skip_skip (c : Cursor) (n m : Nat) : (c.skip n).skip m = c.skip (n + m) := by
  simp [Cursor.skip, Nat.add_assoc]

theorem Cursor.rest_skip {c : Cursor} {w rest : List Char} (h : c.rest = w ++ rest) :
    (c.skip w.length).rest = rest := by
  rw [Cursor.skip, h, List.drop_left]

theorem Cursor.Past.rest_eq {c c' : Cursor} {w rest : List Char} (h : c.Past w c')
    (hc : c.rest = w ++ rest) : c'.rest = rest :=
  List.append_cancel_left (h.rest.symm.trans hc)

theorem Cursor.Past.trans {c c' c'' : Cursor} {a b : List Char} (h : c.Past a c')
    (h' : c'.Past b c'') : c.Past (a ++ b) c'' := by
  refine ⟨by rw [h.rest, h'.rest, List.append_assoc], Nat.le_trans h.line h'.line, ?_, fun hb => ?_⟩
  · rw [h'.index, h.index, List.length_append, Nat.add_assoc]
  · rw [isMultiline, List.any_append, Bool.or_eq_false_iff] at hb
    obtain ⟨hline, hcolumn⟩ := h.inline hb.1
    obtain ⟨hline', hcolumn'⟩ := h'.inline hb.2
    rw [hline', hline, hcolumn', hcolumn, List.length_append, Nat.add_assoc]
    exact ⟨rfl, rfl⟩

theorem Cursor.Past.eq_skip {c c' : Cursor} {w : List Char} (h : c.Past w c')
    (hw : isMultiline w = false) : c' = c.skip w.length := by
  obtain ⟨hline, hcolumn⟩ := h.inline hw
  have hrest : c'.rest = c.rest.drop w.length := by rw [h.rest, List.drop_left]
  rw [Cursor.skip, ← hrest, ← hcolumn, ← h.index, ← hline]

theorem Cursor.isDocumentBoundary_of_column {c : Cursor} (h : c.column ≠ 0) :
    c.isDocumentBoundary = false := by
  simp [Cursor.isDocumentBoundary, Cursor.isDocumentMark, h]

theorem Cursor.isDocumentBoundary_of_rest {c : Cursor} {x : Char} {r : List Char}
    (h : c.rest = x :: r) (hdash : x ≠ '-') (hpoint : x ≠ '.') : c.isDocumentBoundary = false := by
  simp [Cursor.isDocumentBoundary, Cursor.isDocumentMark, h, List.isPrefixOf, Ne.symm hdash,
    Ne.symm hpoint]

end Cursor

section Gap

def EndsGap (rest : List Char) : Prop := ∀ c ∈ rest.head?, isBlank c = false ∧ isBreak c = false

variable {c : Cursor} {rest : List Char}

theorem readGap_endsGap (h : EndsGap c.rest) (indent fuel : Nat) (g : Gap) :
    readGap indent (fuel + 1) g c = some (g, c) := by
  rw [readGap, Cursor.peek?]
  cases hc : c.rest.head? with
  | none => rfl
  | some x =>
    obtain ⟨hblank, hbreak⟩ := h x hc
    simp [hblank, hbreak]

@[simp] theorem length_spaces (n : Nat) : (spaces n).length = n := List.length_replicate

@[simp] theorem reverse_spaces (n : Nat) : (spaces n).reverse = spaces n := List.reverse_replicate

theorem spaces_append_cons (n : Nat) (l : List Char) :
    spaces n ++ ' ' :: l = spaces (n + 1) ++ l := by
  rw [spaces, spaces, List.replicate_succ', List.append_assoc, List.singleton_append]

theorem readGap_spaces (h : EndsGap rest) (indent : Nat) {n fuel : Nat} (hfuel : n < fuel) (g : Gap)
    (hc : c.rest = spaces n ++ rest) :
    readGap indent fuel g c =
      some (if g.broken then g else { g with spaces := spaces n ++ g.spaces }, c.skip n) := by
  induction n generalizing fuel g c with
  | zero =>
    obtain ⟨fuel, rfl⟩ := Nat.exists_eq_add_of_lt hfuel
    have hc : c.rest = rest := hc
    rw [Nat.zero_add, readGap_endsGap (hc ▸ h)]
    simp [spaces, Cursor.skip]
  | succ n ih =>
    cases fuel with
    | zero => simp at hfuel
    | succ fuel =>
      have hc : c.rest = ' ' :: (spaces n ++ rest) := hc
      have hnext : c.next.rest = spaces n ++ rest := by simp [Cursor.next, Cursor.skip, hc]
      have hstep : readGap indent (fuel + 1) g c =
          readGap indent fuel
            (if g.broken then g else { g with spaces := ' ' :: g.spaces }) c.next := by
        simp [readGap, Cursor.peek?, hc, isBlank]
      have hskip : c.next.skip n = c.skip (n + 1) := by
        simp [Cursor.next, Cursor.skip, Nat.add_assoc, Nat.add_comm 1 n]
      rw [hstep, ih (by omega) _ hnext, hskip]
      cases hg : g.broken with
      | true => simp [hg]
      | false => simp [spaces_append_cons]

theorem nextLine_of_isPrintable {b : Char} (hbreak : isBreak b) (hprint : isPrintable b)
    (hc : c.rest = b :: rest) : c.nextLine = ([b], ⟨rest, c.line + 1, 0, c.index + 1⟩) := by
  have hb : b.toNat = 0x0a ∨ b.toNat = 0x2028 ∨ b.toNat = 0x2029 := by
    simp only [isBreak, isPrintable, Bool.or_eq_true, Bool.and_eq_true, beq_iff_eq,
      decide_eq_true_eq] at hbreak hprint
    omega
  unfold Cursor.nextLine
  split
  case h_1 heq =>
    obtain ⟨rfl, _⟩ := List.cons.inj (hc.symm.trans heq)
    simp at hb
  case h_2 heq =>
    obtain ⟨rfl, rfl⟩ := List.cons.inj (hc.symm.trans heq)
    rcases hb with hb | hb | hb
    · obtain rfl : b = '\n' := Char.toNat_inj.mp hb
      simp
    · simp [hb]
    · simp [hb]
  case h_3 heq => simp [heq] at hc

theorem past_nextLine {b : Char} (hbreak : isBreak b) (hprint : isPrintable b)
    (hc : c.rest = b :: rest) : c.Past [b] c.nextLine.2 := by
  rw [nextLine_of_isPrintable hbreak hprint hc]
  exact ⟨hc, Nat.le_succ _, rfl, by simp [isMultiline, hbreak]⟩

theorem isBlank_of_isBreak {b : Char} (h : isBreak b) : isBlank b = false := by
  cases hb : isBlank b with
  | false => rfl
  | true =>
    simp only [isBlank, Bool.or_eq_true, beq_iff_eq] at hb
    rcases hb with rfl | rfl <;> simp [isBreak] at h

theorem readGap_break {b : Char} (hb : isBreak b ∧ isPrintable b) (indent fuel : Nat) (g : Gap)
    (hc : c.rest = b :: rest) :
    readGap indent (fuel + 1) g c =
      readGap indent fuel
        (if g.broken then { g with further := b :: g.further } else ⟨[], true, [b], []⟩)
        ⟨rest, c.line + 1, 0, c.index + 1⟩ := by
  simp [readGap, Cursor.peek?, hc, isBlank_of_isBreak hb.1, hb.1,
    nextLine_of_isPrintable hb.1 hb.2 hc]

theorem readGap_furtherBreaks (h : EndsGap rest) {bs : List Char}
    (hbs : ∀ b ∈ bs, isBreak b ∧ isPrintable b) (indent : Nat) {n fuel : Nat}
    (hfuel : bs.length + n < fuel) (first further : List Char) (line index : Nat) :
    readGap indent fuel ⟨[], true, first, further⟩ ⟨bs ++ (spaces n ++ rest), line, 0, index⟩ =
      some (⟨[], true, first, bs.reverse ++ further⟩,
        ⟨rest, line + bs.length, n, index + (bs.length + n)⟩) := by
  induction bs generalizing fuel line index further with
  | nil =>
    rw [readGap_spaces h indent (by simpa using hfuel) _ rfl, if_pos rfl]
    simp [Cursor.skip, spaces]
  | cons b bs ih =>
    rw [List.forall_mem_cons] at hbs
    cases fuel with
    | zero => simp at hfuel
    | succ fuel =>
      rw [List.cons_append, readGap_break hbs.1 _ _ _ rfl, if_pos rfl,
        ih hbs.2 (by simp at hfuel; omega)]
      simp
      omega

theorem readGap_breaks (h : EndsGap rest) {b : Char} {bs : List Char}
    (hbs : ∀ b' ∈ b :: bs, isBreak b' ∧ isPrintable b') (indent : Nat) {n : Nat} {g : Gap}
    (hg : g.broken = false) (hc : c.rest = b :: bs ++ (spaces n ++ rest)) :
    ∃ c', readGap indent (c.rest.length + 1) g c = some (⟨[], true, [b], bs.reverse⟩, c') ∧
      c.Past (b :: bs ++ spaces n) c' ∧ c'.column = n ∧ c.line < c'.line := by
  have hfuel : bs.length + n < c.rest.length := by
    simp only [hc, List.length_append, List.length_cons, length_spaces]
    omega
  rw [readGap_break (hbs b (by simp)) _ _ _ hc, hg, if_neg Bool.false_ne_true, List.append_eq,
    readGap_furtherBreaks h (fun b' hb' => hbs b' (by simp [hb'])) indent hfuel, List.append_nil]
  refine ⟨_, rfl, ⟨by simp [hc], ?_, ?_, ?_⟩, rfl, by simp; omega⟩
  · exact Nat.le_add_right_of_le (Nat.le_succ _)
  · simp
    omega
  · simp [isMultiline, (hbs b (by simp)).1]

end Gap

def isGapChar (c : Char) : Bool := isBlank c || isBreak c

theorem exists_eq_spaces {g : List Char} (hne : g ≠ []) (h : ∀ c ∈ g, isSpace c) :
    ∃ n, g = spaces (n + 1) := by
  obtain ⟨n, hn⟩ := Nat.exists_eq_succ_of_ne_zero (List.length_pos_iff.mpr hne).ne'
  exact ⟨n, List.eq_replicate_iff.mpr ⟨hn, fun c hc => by simpa [isSpace] using h c hc⟩⟩

end DocSite.Yaml
