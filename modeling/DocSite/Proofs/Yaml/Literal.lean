import DocSite.Proofs.Yaml.Gap
import Mathlib.Data.List.Induction

namespace DocSite.Yaml

section Lines

abbrev IsPlainBreak (b : Char) : Prop := isBreak b ∧ isPrintable b

/-- The indentation of a line of a block ends here: the line has its first character, or something
that is indented less follows the block. -/
def EndsIndent (indent n : Nat) (rest : List Char) : Prop :=
  (EndsGap rest ∧ (indent = 0 ∨ n ≤ indent)) ∨
    (n = indent ∧ indent ≠ 0 ∧ ∀ x ∈ rest.head?, isBreak x = false)

variable {c c' : Cursor} {rest : List Char} {indent n : Nat}

theorem takeWhile_spaces (n : Nat) (rest : List Char) :
    (spaces n ++ rest).takeWhile isSpace = spaces n ++ rest.takeWhile isSpace :=
  List.takeWhile_append_of_pos fun x hx => by simp [List.eq_of_mem_replicate hx, isSpace]

theorem takeWhile_isSpace_of_endsGap (h : EndsGap rest) : rest.takeWhile isSpace = [] := by
  cases rest with
  | nil => rfl
  | cons x r =>
    have hx : isSpace x = false := (Bool.or_eq_false_iff.mp (h x rfl).1).1
    simp [hx]

theorem readBlockBreaks_indent (h : EndsIndent indent n rest) (fuel widest : Nat)
    (breaks : List Char) (hc : c.rest = spaces n ++ rest) (hcolumn : c.column = 0) :
    readBlockBreaks indent (fuel + 1) widest breaks c = some (breaks, max widest n, c.skip n) := by
  have hskip : (if indent = 0 then (c.rest.takeWhile isSpace).length
      else min (c.rest.takeWhile isSpace).length (indent - c.column)) = n := by
    rw [hc, hcolumn, takeWhile_spaces, List.length_append, length_spaces]
    rcases h with ⟨hgap, hn⟩ | ⟨rfl, hn, _⟩
    · rw [takeWhile_isSpace_of_endsGap hgap, List.length_nil]
      split <;> omega
    · rw [if_neg hn]
      omega
  have hrest : (c.skip n).rest = rest := by
    have := Cursor.rest_skip hc
    rwa [length_spaces] at this
  have hcolumn' : (c.skip n).column = n := by simp [Cursor.skip, hcolumn]
  rw [readBlockBreaks]
  simp only [hskip, Cursor.peek?, hrest, hcolumn']
  cases hx : rest.head? with
  | none => rfl
  | some x =>
    rcases h with ⟨hgap, _⟩ | ⟨rfl, hn, hbreak⟩
    · obtain ⟨hblank, hbreak⟩ := hgap x hx
      have htab : x ≠ '\t' := by simpa using (Bool.or_eq_false_iff.mp hblank).2
      simp [htab, hbreak]
    · simp [hn, hbreak x hx]

theorem readBlockBreaks_breaks {bs : List Char} (hbs : ∀ b ∈ bs, IsPlainBreak b)
    (h : EndsIndent indent n rest) (widest : Nat) (breaks : List Char)
    (hc : c.rest = bs ++ (spaces n ++ rest)) (hcolumn : c.column = 0) :
    ∃ c', readBlockBreaks indent (c.rest.length + 1) widest breaks c =
        some (bs.reverse ++ breaks, max widest n, c') ∧
      c.Past (bs ++ spaces n) c' ∧ c'.column = n := by
  induction bs generalizing widest breaks c with
  | nil =>
    have hpast := Cursor.past_skip (w := spaces n) hc
    rw [length_spaces] at hpast
    have hcolumn' : (c.skip n).column = n := by simp [Cursor.skip, hcolumn]
    exact ⟨_, readBlockBreaks_indent h _ widest breaks hc hcolumn, hpast, hcolumn'⟩
  | cons b bs ih =>
    rw [List.forall_mem_cons] at hbs
    have hnext := nextLine_of_isPrintable hbs.1.1 hbs.1.2 hc
    have hblank := Bool.or_eq_false_iff.mp (isBlank_of_isBreak hbs.1.1)
    have hspace : isSpace b = false := hblank.1
    have hstep : readBlockBreaks indent (c.rest.length + 1) widest breaks c =
        readBlockBreaks indent (c.nextLine.2.rest.length + 1) widest
          (b :: breaks) c.nextLine.2 := by
      have hskip : c.skip 0 = c := rfl
      rw [readBlockBreaks]
      simp [hc, hspace, hskip, Cursor.peek?, hbs.1.1, hblank.2, hnext, hcolumn]
    obtain ⟨c', hread, hpast, hcolumn'⟩ := ih (c := c.nextLine.2) hbs.2 widest (b :: breaks)
      (by rw [hnext]; rfl) (by rw [hnext])
    refine ⟨c', ?_, (past_nextLine hbs.1.1 hbs.1.2 hc).trans hpast, hcolumn'⟩
    rw [hstep, hread]
    simp

def BlockText.whole (b : BlockText) : List Char := b.breaks ++ b.lastBreak ++ b.text

theorem BlockText.join_literal (b : BlockText) (startsBlank : Bool) :
    b.join true startsBlank = b.whole := by
  simp [BlockText.join, BlockText.whole]

theorem readBlockLines_line {w : List Char} (hw : w ≠ []) (hline : ∀ x ∈ w, isBreak x = false)
    {g : Char} {gs : List Char} (hgs : ∀ b ∈ g :: gs, IsPlainBreak b) (h : EndsIndent indent n rest)
    (hcolumn : c.column = indent) (hc : c.rest = w ++ (g :: gs ++ (spaces n ++ rest)))
    (b : BlockText) (fuel : Nat) :
    ∃ blank c', readBlockLines true indent (fuel + 1) b c =
        readBlockLines true indent fuel ⟨w.reverse ++ b.whole, [g], gs.reverse, blank⟩ c' ∧
      c.Past (w ++ (g :: gs ++ spaces n)) c' ∧ c'.column = n := by
  rw [List.forall_mem_cons] at hgs
  obtain ⟨hg, hgs⟩ := hgs
  have htake : c.rest.takeWhile (fun x => !isBreak x) = w := by
    rw [hc, List.takeWhile_append_of_pos (by simpa using hline)]
    simp [hg.1]
  have hrest := Cursor.rest_skip hc
  have hnext := nextLine_of_isPrintable hg.1 hg.2 hrest
  have hpast := past_nextLine hg.1 hg.2 hrest
  obtain ⟨c', hread, hpast', hcolumn'⟩ := readBlockBreaks_breaks (c := (c.skip w.length).nextLine.2)
    hgs h 0 [] (by rw [hnext]; rfl) (by rw [hnext])
  obtain ⟨x, r, rfl⟩ := List.exists_cons_of_ne_nil hw
  refine ⟨isBlank x, c', ?_, by simpa using ((Cursor.past_skip hc).trans hpast).trans hpast',
    hcolumn'⟩
  have hpeek : c.peek? = some x := by simp [Cursor.peek?, hc]
  rw [readBlockLines, hpeek]
  simp only [hcolumn, Cursor.takeWhile, htake, BlockText.join_literal, ne_eq, not_true_eq_false,
    if_false]
  rw [hread, hnext]
  simp

/-- What a block says that ends in a line with something on it. -/
structure BlockLines (u : List Char) : Prop where
  first : ∃ x r, u = x :: r ∧ isBreak x = false
  last : ∀ x ∈ u.getLast?, isBreak x = false
  breaks : ∀ x ∈ u, isBreak x → isPrintable x

theorem BlockLines.of_gap {w gs s : List Char} {g : Char} (hg : ∀ b ∈ g :: gs, isBreak b)
    (hs : ∀ x ∈ s.head?, isBreak x = false) (h : BlockLines (w ++ g :: gs ++ s)) :
    BlockLines s where
  first := by
    cases s with
    | nil =>
      have hlast := h.last ((g :: gs).getLast (by simp)) (by simp [List.getLast?_eq_some_getLast])
      rw [hg _ (List.getLast_mem _)] at hlast
      cases hlast
    | cons x r => exact ⟨x, r, rfl, hs x rfl⟩
  last := fun x hx => h.last x (by rw [List.getLast?_append, Option.mem_def.mp hx]; rfl)
  breaks := fun x hx => h.breaks x (by simp [hx])

theorem literalBody_line {w : List Char} (hw : ∀ x ∈ w, isBreak x = false) (s : List Char) :
    literalBody n false false (w ++ s) = w ++ literalBody n false false s := by
  induction w with
  | nil => rfl
  | cons x r ih =>
    rw [List.forall_mem_cons] at hw
    simp [literalBody, hw.1, ih hw.2]

theorem literalBody_breaks {g : Char} {gs : List Char} (hg : ∀ b ∈ g :: gs, isBreak b)
    (broken fresh : Bool) (s : List Char) :
    literalBody n broken fresh (g :: gs ++ s) = g :: gs ++ literalBody n true true s := by
  induction gs generalizing g broken fresh with
  | nil => simp [literalBody, hg g (by simp)]
  | cons d gs ih =>
    rw [List.forall_mem_cons] at hg
    rw [List.cons_append, literalBody, if_pos hg.1, ih hg.2]
    rfl

theorem literalBody_newLine {x : Char} {r : List Char} (hx : isBreak x = false) :
    literalBody n true true (x :: r) = spaces n ++ literalBody n false false (x :: r) := by
  simp [literalBody, hx]

theorem readBlockLines_end (hcolumn : c.column ≠ indent) (b : BlockText) (fuel : Nat) :
    readBlockLines true indent (fuel + 1) b c = some (b, c) := by
  rw [readBlockLines]
  cases c.peek? with
  | none => rfl
  | some x => simp [hcolumn]

theorem readBlockLines_body {u : List Char} (hu : BlockLines u) (hindent : indent ≠ 0)
    {g : Char} {gs : List Char} (hgs : ∀ b ∈ g :: gs, IsPlainBreak b) (h : EndsGap rest) {m : Nat}
    (hm : m < indent) (hcolumn : c.column = indent)
    (hc : c.rest = literalBody indent false false u ++ (g :: gs ++ (spaces m ++ rest)))
    (b : BlockText) {fuel : Nat} (hfuel : u.length < fuel) :
    ∃ blank c', readBlockLines true indent fuel b c =
        some (⟨u.reverse ++ b.whole, [g], gs.reverse, blank⟩, c') ∧
      c.Past (literalBody indent false false u ++ (g :: gs ++ spaces m)) c' ∧ c'.column = m := by
  induction u using words_ind isBreak generalizing b fuel c with
  | word w hw =>
    have hbody : literalBody indent false false w = w := by
      simpa [literalBody] using literalBody_line (n := indent) hw []
    have hne : w ≠ [] := by
      obtain ⟨x, r, rfl, _⟩ := hu.first
      simp
    rw [hbody] at hc ⊢
    obtain ⟨fuel, rfl⟩ : ∃ k, fuel = k + 2 := by
      have := List.length_pos_iff.mpr hne
      exact ⟨fuel - 2, by omega⟩
    obtain ⟨blank, c', hread, hpast, hcolumn'⟩ := readBlockLines_line hne hw hgs
      (.inl ⟨h, .inr (Nat.le_of_lt hm)⟩) hcolumn hc b (fuel + 1)
    refine ⟨blank, c', ?_, hpast, hcolumn'⟩
    rw [hread, readBlockLines_end (by omega)]
  | gap w d s hw hne hd hs ih =>
    obtain ⟨d, ds, rfl⟩ := List.exists_cons_of_ne_nil hne
    have hs := hu.of_gap hd hs
    have hds : ∀ b ∈ d :: ds, IsPlainBreak b := fun b hb =>
      ⟨hd b hb, hu.breaks b (List.mem_append_left s (List.mem_append_right w hb)) (hd b hb)⟩
    have hw' : w ≠ [] := by
      rintro rfl
      obtain ⟨x, r, hr, hx⟩ := hu.first
      obtain ⟨rfl, _⟩ := List.cons.inj hr
      simp [hd d (by simp)] at hx
    have hbody : literalBody indent false false (w ++ d :: ds ++ s) =
        w ++ (d :: ds ++ (spaces indent ++ literalBody indent false false s)) := by
      obtain ⟨x, r, rfl, hx⟩ := hs.first
      rw [List.append_assoc, literalBody_line hw, literalBody_breaks hd, literalBody_newLine hx]
    have hends : EndsIndent indent indent
        (literalBody indent false false s ++ (g :: gs ++ (spaces m ++ rest))) := by
      obtain ⟨x, r, rfl, hx⟩ := hs.first
      exact .inr ⟨rfl, hindent, by simp [literalBody, hx]⟩
    cases fuel with
    | zero => simp at hfuel
    | succ fuel =>
      have hfuel : s.length < fuel := by
        simp at hfuel
        omega
      rw [hbody] at hc ⊢
      obtain ⟨blank, c₁, hread, hpast, hcolumn₁⟩ := readBlockLines_line hw' hw hds hends hcolumn
        (by simpa using hc) b fuel
      obtain ⟨blank', c', hread', hpast', hcolumn'⟩ := ih hs hcolumn₁
        (hpast.rest_eq (by simpa using hc)) ⟨w.reverse ++ b.whole, [d], ds.reverse, blank⟩ hfuel
      refine ⟨blank', c', ?_, by simpa using hpast.trans hpast', hcolumn'⟩
      rw [hread, hread']
      simp [BlockText.whole]

end Lines

section Block

variable {c : Cursor} {rest : List Char}

def chompingOf : List Char → Chomping
  | [] => .strip
  | [_] => .clip
  | _ => .keep

theorem exists_blockLines {s : List Char} (hfirst : ∃ x r, s = x :: r ∧ isBreak x = false)
    (hprint : ∀ x ∈ s, isBreak x → isPrintable x) :
    ∃ u e, s = u ++ e ∧ BlockLines u ∧ ∀ b ∈ e, isBreak b := by
  have hsplit : ∃ u e, s = u ++ e ∧ (∀ x ∈ u.getLast?, isBreak x = false) ∧ ∀ b ∈ e, isBreak b := by
    clear hfirst hprint
    induction s using List.reverseRecOn with
    | nil => exact ⟨[], [], rfl, by simp, by simp⟩
    | append_singleton l a ih =>
      cases ha : isBreak a with
      | false => exact ⟨l ++ [a], [], by simp, by simpa using ha, by simp⟩
      | true =>
        obtain ⟨u, e, rfl, hu, he⟩ := ih
        refine ⟨u, e ++ [a], by simp, hu, fun b hb => ?_⟩
        rcases List.mem_append.mp hb with hb | hb
        · exact he b hb
        · rwa [List.mem_singleton.mp hb]
  obtain ⟨u, e, rfl, hu, he⟩ := hsplit
  refine ⟨u, e, rfl, ⟨?_, hu, fun x hx => hprint x (by simp [hx])⟩, he⟩
  obtain ⟨x, r, hr, hx⟩ := hfirst
  cases u with
  | nil =>
    rw [List.nil_append] at hr
    rw [he x (by simp [hr])] at hx
    cases hx
  | cons y t => exact ⟨y, t, rfl, (List.cons.inj hr).1 ▸ hx⟩

def chompMarks : List (List Char × Chomping) := [(['-'], .strip), ([], .clip), (['+'], .keep)]

theorem chompMark_append {u e : List Char} (hu : BlockLines u) (he : ∀ b ∈ e, isBreak b) :
    (chompMark (u ++ e), chompingOf e) ∈ chompMarks := by
  obtain ⟨x, hx⟩ : ∃ x, u.getLast? = some x := by
    obtain ⟨x, r, rfl, _⟩ := hu.first
    exact ⟨_, List.getLast?_eq_some_getLast (by simp)⟩
  obtain ⟨t, rfl⟩ := List.getLast?_eq_some_iff.mp hx
  have hx := hu.last x hx
  match e with
  | [] => simp [chompMark, hx, chompingOf, chompMarks]
  | [b] =>
    have hb : isBreak b := he b (by simp)
    simp [chompMark, hx, hb, chompingOf, chompMarks]
  | b :: b' :: bs =>
    obtain ⟨y, z, l, hr⟩ : ∃ y z l, (b :: b' :: bs).reverse = y :: z :: l := by
      match h : (b :: b' :: bs).reverse with
      | [] => simp at h
      | [y] => simpa using congrArg List.length h
      | y :: z :: l => exact ⟨y, z, l, rfl⟩
    have hmem : ∀ a ∈ y :: z :: l, isBreak a := fun a ha => he a (by rwa [← List.mem_reverse, hr])
    have hy : isBreak y := hmem y (by simp)
    have hz : isBreak z := hmem z (by simp)
    rw [chompMark, List.reverse_append, hr]
    simp [hy, hz, chompingOf, chompMarks]

theorem literalBody_append {u e : List Char} (he : ∀ b ∈ e, isBreak b) (n : Nat)
    (broken fresh : Bool) :
    literalBody n broken fresh (u ++ e) = literalBody n broken fresh u ++ e := by
  induction u generalizing broken fresh with
  | nil =>
    cases e with
    | nil => rfl
    | cons b bs =>
      have := literalBody_breaks (n := n) he broken fresh []
      simpa [literalBody] using this
  | cons x r ih =>
    simp only [List.cons_append, literalBody]
    split <;> simp [ih]

theorem readBlockMarks_header {mark t : List Char} {chomping : Chomping} (hinted : Bool)
    (h : (mark, chomping) ∈ chompMarks)
    (hc : c.rest = ((if hinted then ['2'] else []) ++ mark) ++ '\n' :: t) :
    readBlockMarks c = some (chomping, if hinted then 2 else 0,
      c.skip ((if hinted then ['2'] else []) ++ mark).length) := by
  simp only [chompMarks, List.mem_cons, Prod.mk.injEq, List.not_mem_nil, or_false] at h
  obtain ⟨_, line, column, index⟩ := c
  obtain rfl : _ = _ := hc
  rcases h with ⟨rfl, rfl⟩ | ⟨rfl, rfl⟩ | ⟨rfl, rfl⟩ <;> cases hinted <;> rfl

theorem readLineEnd_newLine {t : List Char} (hc : c.rest = '\n' :: t) :
    readLineEnd c = some c.nextLine.2 := by
  have hskip : c.skip 0 = c := rfl
  simp [readLineEnd, Cursor.takeWhile, hc, isBlank, isBreak, hskip, Cursor.peek?]

theorem readBlock_header {mark t : List Char} {chomping : Chomping} (hinted : Bool)
    (h : (mark, chomping) ∈ chompMarks)
    (hc : c.rest = '|' :: ((if hinted then ['2'] else []) ++ mark) ++ '\n' :: t) :
    ∃ c₁ c₂, readBlockMarks c.next = some (chomping, if hinted then 2 else 0, c₁) ∧
      readLineEnd c₁ = some c₂ ∧
      c.Past ('|' :: ((if hinted then ['2'] else []) ++ mark) ++ ['\n']) c₂ ∧ c₂.column = 0 ∧
      c.line < c₂.line := by
  have hnext := Cursor.rest_skip (w := ['|']) hc
  have hend := Cursor.rest_skip hnext
  have hline := nextLine_of_isPrintable (by decide) (by decide) hend
  refine ⟨_, _, readBlockMarks_header hinted h hnext, readLineEnd_newLine hend, ?_, ?_, ?_⟩
  · exact ((Cursor.past_skip (w := ['|']) hc).trans (Cursor.past_skip hnext)).trans
      (past_nextLine (by decide) (by decide) hend)
  · exact congrArg (Cursor.column ·.2) hline
  · exact Nat.lt_of_lt_of_eq (Nat.lt_succ_self _) (congrArg (Cursor.line ·.2) hline).symm

def finalBreaks : List Char → List Char
  | [] => ['\n']
  | e => e

theorem exists_finalBreaks {e : List Char} (he : ∀ b ∈ e, IsPlainBreak b) :
    ∃ g gs, finalBreaks e = g :: gs ∧ ∀ b ∈ g :: gs, IsPlainBreak b := by
  cases e with
  | nil => exact ⟨'\n', [], rfl, List.forall_mem_singleton.mpr (by decide)⟩
  | cons b bs => exact ⟨b, bs, rfl, he⟩

theorem getLast?_literalBody (n : Nat) (broken fresh : Bool) (u : List Char) :
    (literalBody n broken fresh u).getLast? = u.getLast? := by
  induction u generalizing broken fresh with
  | nil => rfl
  | cons x r ih =>
    rw [literalBody]
    split <;> simp [List.getLast?_cons, ih]

theorem getLast?_writeLiteral (n : Nat) {s : List Char} {x : Char} (h : s.getLast? = some x) :
    (writeLiteral n s).getLast? = some x := by
  have hbody := getLast?_literalBody n true false s
  rw [h] at hbody
  simp [writeLiteral, List.getLast?_cons, List.getLast?_append, hbody]

theorem lineEnd_of_getLast? {written : List Char} {x : Char} (h : written.getLast? = some x) :
    lineEnd written = if isBreak x then [] else ['\n'] := by
  simp [lineEnd, h]

theorem append_lineEnd_writeLiteral {u e : List Char} (hu : BlockLines u) (he : ∀ b ∈ e, isBreak b)
    (n : Nat) : e ++ lineEnd (writeLiteral n (u ++ e)) = finalBreaks e := by
  cases e with
  | nil =>
    obtain ⟨x, r, rfl, _⟩ := hu.first
    have hlast : (x :: r).getLast? = some ((x :: r).getLast (by simp)) :=
      List.getLast?_eq_some_getLast _
    rw [List.append_nil, lineEnd_of_getLast? (getLast?_writeLiteral n hlast), hu.last _ hlast]
    rfl
  | cons b bs =>
    have hlast : (u ++ b :: bs).getLast? = some ((b :: bs).getLast (by simp)) := by
      simp [List.getLast?_eq_some_getLast]
    rw [lineEnd_of_getLast? (getLast?_writeLiteral n hlast), if_pos (he _ (List.getLast_mem _)),
      List.append_nil]
    rfl

theorem writeLiteral_append_lineEnd {x : Char} {r e : List Char} (hu : BlockLines (x :: r))
    (hx : isBreak x = false) (he : ∀ b ∈ e, isBreak b) (n : Nat) :
    writeLiteral n (x :: r ++ e) ++ lineEnd (writeLiteral n (x :: r ++ e)) =
      '|' :: ((if isSpace x then ['2'] else []) ++ chompMark (x :: r ++ e)) ++
        '\n' :: (spaces n ++ (literalBody n false false (x :: r) ++ finalBreaks e)) := by
  rw [← append_lineEnd_writeLiteral hu he n]
  generalize lineEnd (writeLiteral n (x :: r ++ e)) = final
  have hbody : literalBody n true false (x :: r ++ e) =
      '\n' :: (spaces n ++ (literalBody n false false (x :: r) ++ e)) := by
    rw [literalBody_append he]
    simp [literalBody, hx]
  rw [writeLiteral, hbody]
  cases hspace : isSpace x <;> simp [hx, hspace]

theorem length_le_literalBody (n : Nat) (broken fresh : Bool) (u : List Char) :
    u.length ≤ (literalBody n broken fresh u).length := by
  induction u generalizing broken fresh with
  | nil => simp
  | cons x r ih =>
    rw [literalBody]
    split
    · simpa using ih true true
    · have := ih false false
      simp only [List.length_append, List.length_cons]
      omega

theorem endsIndent_first {x : Char} (hx : isBreak x = false) (htab : x ≠ '\t') {n : Nat}
    (hn : n ≠ 0) (r : List Char) : EndsIndent (if isSpace x then n else 0) n (x :: r) := by
  cases hspace : isSpace x with
  | true => exact .inr ⟨rfl, hn, by simpa using hx⟩
  | false =>
    have hblank : isBlank x = false := by
      rw [isSpace] at hspace
      simp [isBlank, hspace, htab]
    exact .inl ⟨by simp [EndsGap, hblank, hx], .inl rfl⟩

theorem told_header {least : Nat} (h : least ≠ 0) (hinted : Bool) :
    (if (if hinted then 2 else 0) = 0 then 0 else if least = 0 then (if hinted then 2 else 0)
      else least - 1 + (if hinted then 2 else 0)) = if hinted then least + 1 else 0 := by
  cases hinted with
  | true =>
    simp only [if_true, Nat.succ_ne_zero, if_false, if_neg h]
    omega
  | false => rfl

theorem indent_header (least : Nat) (hinted : Bool) :
    (if (if hinted then least + 1 else 0) = 0 then max (max 0 (least + 1)) (max least 1)
      else if hinted then least + 1 else 0) = least + 1 := by
  cases hinted with
  | true => rfl
  | false =>
    simp only [Bool.false_eq_true, if_false, if_true]
    omega

theorem chomp_finalBreaks {e gs : List Char} {g : Char} (h : finalBreaks e = g :: gs)
    (text : List Char) :
    (match chompingOf e with
      | .strip => text
      | .clip => [g] ++ text
      | .keep => gs.reverse ++ [g] ++ text).reverse = text.reverse ++ e := by
  match e with
  | [] => simp [chompingOf]
  | [b] =>
    obtain ⟨rfl, rfl⟩ := List.cons.inj h
    simp [chompingOf]
  | b :: b' :: bs =>
    obtain ⟨rfl, rfl⟩ := List.cons.inj h
    simp [chompingOf]

/-- A literal block is read back unless its text starts with a line break or a tab. -/
theorem readBlock_writeLiteral {s : List Char} (hprint : ∀ x ∈ s, isBreak x → isPrintable x)
    (hfirst : ∃ x r, s = x :: r ∧ isBreak x = false ∧ x ≠ '\t') {least m : Nat} (hm : m < least)
    (hrest : EndsGap rest)
    (hc : c.rest = writeLiteral (least + 1) s ++ lineEnd (writeLiteral (least + 1) s) ++
      (spaces m ++ rest)) :
    ∃ c', readBlock true least c = some (s, c') ∧
      c.Past (writeLiteral (least + 1) s ++ lineEnd (writeLiteral (least + 1) s) ++ spaces m) c' ∧
      c'.column = m ∧ c.line < c'.line := by
  obtain ⟨x, r, rfl, hx, htab⟩ := hfirst
  obtain ⟨u, e, hs, hu, he⟩ := exists_blockLines ⟨x, r, rfl, hx⟩ hprint
  rw [hs] at hprint hc ⊢
  obtain ⟨g, gs, hfinal, hgs⟩ := exists_finalBreaks (e := e) fun b hb =>
    ⟨he b hb, hprint b (by simp [hb]) (he b hb)⟩
  obtain ⟨r, rfl⟩ : ∃ t, u = x :: t := by
    obtain ⟨y, t, rfl, _⟩ := hu.first
    exact ⟨t, by rw [(List.cons.inj hs).1]⟩
  rw [writeLiteral_append_lineEnd hu hx he, hfinal] at hc ⊢
  have hc : c.rest = '|' :: ((if isSpace x then ['2'] else []) ++ chompMark (x :: r ++ e)) ++
      '\n' :: (spaces (least + 1) ++ (literalBody (least + 1) false false (x :: r) ++
        (g :: gs ++ (spaces m ++ rest)))) := by
    simpa using hc
  obtain ⟨c₁, c₂, hmarks, hline, hpast, hcolumn, hlater⟩ :=
    readBlock_header (isSpace x) (chompMark_append hu he) hc
  have hrest₂ := hpast.rest_eq (by simpa using hc)
  have hends : EndsIndent (if isSpace x then least + 1 else 0) (least + 1)
      (literalBody (least + 1) false false (x :: r) ++ (g :: gs ++ (spaces m ++ rest))) := by
    rw [literalBody, hx]
    exact endsIndent_first hx htab (Nat.succ_ne_zero _) _
  obtain ⟨c₃, hbreaks, hpast₃, hcolumn₃⟩ := readBlockBreaks_breaks
    (show ∀ b ∈ [], IsPlainBreak b by simp) hends 0 [] hrest₂ hcolumn
  have hrest₃ := hpast₃.rest_eq hrest₂
  have hfuel : (x :: r).length < c₃.rest.length + 1 := by
    have := length_le_literalBody (least + 1) false false (x :: r)
    rw [hrest₃, List.length_append]
    omega
  obtain ⟨blank, c₄, hlines, hpast₄, hcolumn₄⟩ :=
    readBlockLines_body hu (Nat.add_one_ne_zero least) hgs hrest (Nat.lt_add_one_of_lt hm) hcolumn₃
      hrest₃ ⟨[], [], [], false⟩ hfuel
  refine ⟨c₄, ?_, by simpa using (hpast.trans hpast₃).trans hpast₄, hcolumn₄,
    Nat.lt_of_lt_of_le hlater (hpast₃.trans hpast₄).line⟩
  have hwhole : BlockText.whole ⟨[], [], [], false⟩ = [] := rfl
  rw [readBlock, hmarks]
  simp only [Option.bind_eq_bind, Option.bind_some, hline, told_header (Nat.ne_zero_of_lt hm),
    hbreaks, indent_header, List.reverse_nil, List.append_nil, hlines, hwhole]
  have htext := chomp_finalBreaks hfinal (x :: r).reverse
  rw [List.reverse_reverse] at htext
  exact congrArg (fun text => some (text, c₄)) htext

end Block

end DocSite.Yaml
