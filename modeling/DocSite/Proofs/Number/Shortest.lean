import DocSite.Number.Shortest
import DocSite.Proofs.Number.Decimal
import Mathlib.Algebra.Group.Nat.Defs
import Mathlib.Data.Nat.Log

namespace DocSite.Binary64

section Exact

variable {n : Nat}

theorem ratio_neg (m : Nat) {k : Nat} (h : 0 < k) : ratio m (-(k : Int)) = (m, 2 ^ k) := by
  rw [ratio, if_neg (by omega)]
  simp

theorem divNearest_one (n : Nat) : divNearest n 1 = n := by
  simp [divNearest, Nat.mod_one]

theorem mantissa_bounds (h0 : n ≠ 0) (h : n < 2 ^ 52) :
    2 ^ 52 ≤ n * 2 ^ (52 - n.log2) ∧ n * 2 ^ (52 - n.log2) < 2 ^ 53 := by
  have hlog : n.log2 < 52 := (Nat.log2_lt h0).mpr h
  have hpow (k : Nat) (hk : k = n.log2 ∨ k = n.log2 + 1) :
      2 ^ k * 2 ^ (52 - n.log2) = 2 ^ (52 + (k - n.log2)) := by
    rw [← Nat.pow_add]
    congr 1
    omega
  constructor
  · calc 2 ^ 52 = 2 ^ n.log2 * 2 ^ (52 - n.log2) := by rw [hpow _ (.inl rfl), Nat.sub_self]
      _ ≤ n * 2 ^ (52 - n.log2) := Nat.mul_le_mul_right _ (Nat.log2_self_le h0)
  · calc n * 2 ^ (52 - n.log2) < 2 ^ (n.log2 + 1) * 2 ^ (52 - n.log2) :=
        Nat.mul_lt_mul_of_pos_right Nat.lt_log2_self (Nat.two_pow_pos _)
      _ = 2 ^ 53 := by rw [hpow _ (.inr rfl), Nat.add_sub_cancel_left]

theorem exponentOf_whole (h0 : n ≠ 0) (h : n < 2 ^ 52) :
    exponentOf n 1 = -((52 - n.log2 : Nat) : Int) := by
  have hlog : n.log2 < 52 := (Nat.log2_lt h0).mpr h
  have hone : Nat.log2 1 = 0 := by decide
  have hguess : (n.log2 : Int) - (0 : Nat) - 53 = -((53 - n.log2 : Nat) : Int) := by omega
  have hfloor : ¬scaledFloor n 1 (-((53 - n.log2 : Nat) : Int)) < Nat.pow 2 53 := by
    rw [scaledFloor, if_neg (by omega), Int.neg_neg, Int.toNat_natCast, Nat.div_one, Nat.not_lt]
    have hstep : 53 - n.log2 = 52 - n.log2 + 1 := by omega
    have hlow := (mantissa_bounds h0 h).1
    calc 2 ^ 53 = 2 ^ 52 * 2 := rfl
      _ ≤ n * 2 ^ (52 - n.log2) * 2 := Nat.mul_le_mul_right 2 hlow
      _ = n * 2 ^ (53 - n.log2) := by rw [hstep, Nat.pow_succ, Nat.mul_assoc]
  rw [exponentOf, hone, hguess]
  simp only [if_neg hfloor, leastExponent]
  omega

theorem ofRatio_whole (negative : Bool) (h0 : n ≠ 0) (h : n < 2 ^ 52) :
    ofRatio negative n 1 =
      .finite negative (n * 2 ^ (52 - n.log2)) (-((52 - n.log2 : Nat) : Int)) := by
  have hlog : n.log2 < 52 := (Nat.log2_lt h0).mpr h
  have hnearest : scaledNearest n 1 (-((52 - n.log2 : Nat) : Int)) = n * 2 ^ (52 - n.log2) := by
    rw [scaledNearest, if_neg (by omega), divNearest_one, Int.neg_neg, Int.toNat_natCast]
    rfl
  have hne : n * 2 ^ (52 - n.log2) ≠ Nat.pow 2 53 := (mantissa_bounds h0 h).2.ne
  rw [ofRatio, if_neg h0]
  simp only [exponentOf_whole h0 h, hnearest, if_neg hne, greatestExponent]
  rw [if_neg (by omega)]

end Exact

section Digits

variable {n k : Nat}

theorem compareDecimal_nat (digits p num den : Nat) :
    compareDecimal digits p num den = compare (digits * 10 ^ p * den) num := by
  rw [compareDecimal, if_pos (by omega), Int.toNat_natCast]
  rfl

/-- Of the multiples of a power of ten only the number itself lies between its midpoints with its
neighbours, which are less than one apart. -/
theorem readsBack_whole (h0 : n ≠ 0) (hk : 0 < k) (digits p : Nat) :
    readsBack (n * 2 ^ k) (-(k : Int)) digits p = decide (digits * 10 ^ p = n) := by
  have hexponent : -(k : Int) - 2 = -((k + 2 : Nat) : Int) := by omega
  have hden : 4 * (n * 2 ^ k) = n * 2 ^ (k + 2) := by
    rw [Nat.pow_add, Nat.mul_left_comm, Nat.mul_comm 4]
  have hgap : 2 ^ 2 ≤ 2 ^ (k + 2) := Nat.pow_le_pow_right (by decide) (by omega)
  rw [readsBack]
  simp only [hexponent, ratio_neg _ (show 0 < k + 2 by omega), compareDecimal_nat, hden]
  generalize hcut : (if n * 2 ^ k = Nat.pow 2 52 ∧ leastExponent < -(k : Int) then 1 else 2) = below
  have hcut : 1 ≤ below ∧ below ≤ 2 := by
    subst hcut
    split <;> decide
  generalize digits * 10 ^ p = v
  generalize 2 ^ (k + 2) = q at *
  rcases Nat.lt_trichotomy v n with hv | rfl | hv
  · have hlow : v * q < n * q - below := by
      have := Nat.mul_le_mul_right q (Nat.succ_le_of_lt hv)
      rw [Nat.succ_mul] at this
      omega
    simp [Nat.compare_eq_lt.mpr hlow, hv.ne]
  · have hpos : 4 ≤ v * q := le_trans hgap (Nat.le_mul_of_pos_left q (by omega))
    have hlow : v * q > v * q - below := by omega
    have hhigh : v * q < v * q + 2 := by omega
    simp [Nat.compare_eq_gt.mpr hlow, Nat.compare_eq_lt.mpr hhigh]
  · have hhigh : v * q > n * q + 2 := by
      have := Nat.mul_le_mul_right q (Nat.succ_le_of_lt hv)
      rw [Nat.succ_mul] at this
      omega
    simp [Nat.compare_eq_gt.mpr hhigh, hv.ne']

theorem candidate?_whole (h0 : n ≠ 0) (hk : 0 < k) {place : Int} {count p : Nat}
    (hp : place - count = p) : candidate? (n * 2 ^ k) (-(k : Int)) place count =
      if n / 10 ^ p * 10 ^ p = n then some (n / 10 ^ p, (p : Int)) else none := by
  have hfloor : decimalFloor (n * 2 ^ k) (2 ^ k) p = n / 10 ^ p := by
    rw [decimalFloor, if_pos (by omega), Int.toNat_natCast, Nat.mul_comm n]
    exact Nat.mul_div_mul_left n _ (Nat.two_pow_pos k)
  have hnext : (n / 10 ^ p + 1) * 10 ^ p ≠ n :=
    (Nat.lt_mul_of_div_lt (Nat.lt_succ_self _) (Nat.pow_pos (by decide))).ne'
  rw [candidate?]
  simp only [hp, ratio_neg _ hk, hfloor, readsBack_whole h0 hk, hnext]
  split <;> simp_all

def Spells (n : Nat) (d : Nat × Int) : Prop := ∃ p : Nat, d.2 = p ∧ d.1 * 10 ^ p = n

theorem searchDigits_whole (h0 : n ≠ 0) (hk : 0 < k) {place : Int} {fuel count : Nat}
    (hcount : (count : Int) ≤ place) (hfuel : place - count < fuel) :
    Spells n (searchDigits (n * 2 ^ k) (-(k : Int)) place fuel count) := by
  induction fuel generalizing count with
  | zero => omega
  | succ fuel ih =>
    obtain ⟨p, hp⟩ : ∃ p : Nat, place - count = p := ⟨(place - count).toNat, by omega⟩
    rw [searchDigits, candidate?_whole h0 hk hp]
    split
    · rename_i found hfound
      split at hfound
      · obtain rfl := Option.some.inj hfound
        exact ⟨p, rfl, ‹_›⟩
      · cases hfound
    · rename_i hnone
      -- with all digits the number itself is found
      have hpos : p ≠ 0 := by
        rintro rfl
        simp at hnone
      exact ih (by omega) (by omega)

theorem Spells.trimZeros {d : Nat × Int} (h : Spells n d) (fuel : Nat) :
    Spells n (trimZeros fuel d) := by
  induction fuel generalizing d with
  | zero => exact h
  | succ fuel ih =>
    obtain ⟨digits, power⟩ := d
    obtain ⟨p, hp : power = p, hn⟩ := h
    rw [Binary64.trimZeros]
    split
    · rename_i hzero
      refine ih ⟨p + 1, show power + 1 = _ by omega, ?_⟩
      rw [Nat.pow_succ, Nat.mul_comm (10 ^ p), ← Nat.mul_assoc,
        Nat.div_mul_cancel (Nat.dvd_of_mod_eq_zero hzero.2), hn]
    · exact ⟨p, hp, hn⟩

theorem raisePlace_le (num den fuel : Nat) (place : Int) :
    raisePlace num den fuel place ≤ place + fuel := by
  induction fuel generalizing place with
  | zero => simp [raisePlace]
  | succ fuel ih =>
    rw [raisePlace]
    split
    · have := ih (place + 1)
      omega
    · omega

theorem le_raisePlace (num den fuel : Nat) (place : Int) :
    place ≤ raisePlace num den fuel place := by
  induction fuel generalizing place with
  | zero => simp [raisePlace]
  | succ fuel ih =>
    rw [raisePlace]
    split
    · have := ih (place + 1)
      omega
    · omega

theorem raisePlace_pos {num den fuel : Nat} {place : Int} (h : den ≤ num)
    (hpos : 0 < place + fuel) :
    0 < raisePlace num den fuel place := by
  induction fuel generalizing place with
  | zero => simpa [raisePlace] using hpos
  | succ fuel ih =>
    by_cases hplace : 0 < place
    · exact lt_of_lt_of_le hplace (le_raisePlace ..)
    · have hcompare : compareDecimal 1 place num den ≠ .gt := by
        rw [compareDecimal]
        split
        · obtain rfl : place = 0 := by omega
          rw [Ne, Nat.compare_eq_gt]
          simpa using h
        · rw [Ne, Nat.compare_eq_gt, Nat.one_mul, Nat.not_lt]
          exact le_trans h (Nat.le_mul_of_pos_right num (Nat.pow_pos (by decide)))
      rw [raisePlace, if_pos (by simpa using hcompare)]
      exact ih (by omega)

theorem log2_mul_two_pow (h0 : n ≠ 0) : (n * 2 ^ k).log2 = n.log2 + k := by
  induction k with
  | zero => simp
  | succ k ih =>
    have hne : n * 2 ^ k ≠ 0 := Nat.mul_ne_zero h0 (Nat.two_pow_pos k).ne'
    rw [Nat.pow_succ', Nat.mul_left_comm, Nat.log2_two_mul hne, ih, Nat.add_assoc]

theorem shortestDigits_whole (h0 : n ≠ 0) (hk : 0 < k) (h : n.log2 < 20) :
    Spells n (shortestDigits (n * 2 ^ k) (-(k : Int))) := by
  rw [shortestDigits, ratio_neg _ hk]
  refine Spells.trimZeros ?_ 20
  have hlog : Nat.log2 (2 ^ k) = k := Nat.log2_two_pow
  have hplace : decimalPlace (n * 2 ^ k) (2 ^ k) =
      raisePlace (n * 2 ^ k) (2 ^ k) 4 (((n.log2 : Int) - 1) * 30103 / 100000) := by
    rw [decimalPlace, log2_mul_two_pow h0, hlog]
    congr 3
    omega
  have hle : 2 ^ k ≤ n * 2 ^ k := Nat.le_mul_of_pos_left _ (Nat.pos_of_ne_zero h0)
  have hpos : 0 < raisePlace (n * 2 ^ k) (2 ^ k) 4 (((n.log2 : Int) - 1) * 30103 / 100000) :=
    raisePlace_pos hle (by omega)
  have hmax := raisePlace_le (n * 2 ^ k) (2 ^ k) 4 (((n.log2 : Int) - 1) * 30103 / 100000)
  rw [← hplace] at hpos hmax
  exact searchDigits_whole h0 hk (by omega) (by omega)

end Digits

section Text

theorem toDigits_mul_ten_pow {d : Nat} (h : 0 < d) (p : Nat) :
    Nat.toDigits 10 (d * 10 ^ p) = Nat.toDigits 10 d ++ List.replicate p '0' := by
  induction p with
  | zero => simp
  | succ p ih =>
    have hstep := Nat.toDigits_append_toDigits (b := 10) (n := d * 10 ^ p) (d := 0) (by decide)
      (Nat.mul_pos h (Nat.pow_pos (by decide))) (by decide)
    rw [List.replicate_succ', ← List.append_assoc, ← ih, Nat.pow_succ, ← Nat.mul_assoc,
      Nat.mul_comm _ 10]
    exact hstep.symm

theorem positional_of_spells {n d p : Nat} (hd : 0 < d) (hn : d * 10 ^ p = n) :
    positional (Nat.toDigits 10 d) ((Nat.toDigits 10 d).length + p : Nat) = toString n := by
  have hlength : 0 < (Nat.toDigits 10 d).length := Nat.length_toDigits_pos
  rw [positional, if_neg (by omega), Int.toNat_natCast, List.take_of_length_le (by omega),
    List.drop_eq_nil_of_le (by omega)]
  simp only [List.isEmpty_nil, if_true, Nat.add_sub_cancel_left]
  rw [Nat.toString_eq_ofList_toDigits, ← hn, toDigits_mul_ten_pow hd]

theorem text_of_spells {negative : Bool} {m : Nat} {e : Int} {n : Nat} (hm : m ≠ 0) (h0 : n ≠ 0)
    (h : n < 1000000) (hs : Spells n (shortestDigits m e)) :
    (Binary64.finite negative m e).text = (if negative then "-" else "") ++ toString n := by
  simp only [text, if_neg hm]
  generalize shortestDigits m e = digits at hs
  obtain ⟨d, power⟩ := digits
  obtain ⟨p, rfl : power = p, hn : d * 10 ^ p = n⟩ := hs
  have hd : 0 < d := Nat.pos_of_ne_zero fun hzero => h0 (by rw [← hn, hzero, Nat.zero_mul])
  have hpos : 0 < (Nat.toDigits 10 d).length := Nat.length_toDigits_pos
  have hlength : (Nat.toDigits 10 n).length ≤ 6 :=
    (Nat.length_toDigits_le_iff (by decide) (by decide)).mpr (by omega)
  rw [← hn, toDigits_mul_ten_pow hd, List.length_append, List.length_replicate] at hlength
  simp only
  rw [if_neg (by omega), ← Int.natCast_add, positional_of_spells hd hn]

theorem text_ofInt {i : Int} (h : i.natAbs < 1000000) : (ofInt i).text = toString i := by
  by_cases h0 : i.natAbs = 0
  · obtain rfl : i = 0 := by omega
    decide +kernel
  · have hlog : i.natAbs.log2 < 20 := (Nat.log2_lt h0).mpr (by omega)
    have hmantissa := Nat.mul_ne_zero h0 (Nat.two_pow_pos (52 - i.natAbs.log2)).ne'
    rw [ofInt, ofRatio_whole _ h0 (by omega),
      text_of_spells hmantissa h0 h (shortestDigits_whole h0 (by omega) hlog), ← String.toList_inj,
      Number.toList_toString, String.toList_append, Nat.toString_eq_ofList_toDigits,
      String.toList_ofList]
    by_cases hi : i < 0
    · rw [decide_eq_true hi, if_pos rfl, if_pos hi]
      rfl
    · rw [decide_eq_false hi, if_neg (by decide), if_neg hi]
      rfl

theorem length_positional {digits : List Char} {point : Int}
    (h : '.' ∉ (positional digits point).toList) :
    (positional digits point).toList.length = point.toNat := by
  rw [positional] at h ⊢
  split
  · simp [*] at h
  · rename_i hpoint
    simp only [if_neg hpoint] at h ⊢
    split
    · rw [String.toList_ofList, List.length_append, List.length_replicate, List.length_take]
      omega
    · rename_i hfraction
      simp [hfraction] at h

theorem length_toDigits_le {i : Int} {negative : Bool} {body : String}
    (h : (if negative then "-" else "") ++ body = toString i) :
    (Nat.toDigits 10 i.natAbs).length ≤ body.toList.length := by
  have hsign : ((if negative then "-" else "").toList.filter (· != '-')) = [] := by
    cases negative <;> decide
  have hdigits : (toString i).toList.filter (· != '-') = Nat.toDigits 10 i.natAbs := by
    rw [Number.toList_toString, List.filter_append]
    have hsign : ((if i < 0 then ['-'] else []).filter (· != '-')) = [] := by
      split <;> decide
    rw [hsign, List.nil_append, List.filter_eq_self]
    intro c hc
    simpa using Number.ne_of_isDigit (Number.isDigit_of_mem_toDigits hc) (d := '-') (by decide)
  rw [← hdigits, ← h, String.toList_append, List.filter_append, hsign, List.nil_append]
  exact List.length_filter_le _ _

theorem natAbs_lt_of_text_eq {x : Binary64} {i : Int} (h : x.text = toString i) :
    i.natAbs < 1000000 := by
  have hmem (c : Char) (hdigit : c.isDigit = false) (hsign : c ≠ '-') : c ∉ x.text.toList :=
    h ▸ Number.not_mem_toString hdigit hsign
  have hlength {n : Nat} (hn : n ≤ 6) (hle : (Nat.toDigits 10 i.natAbs).length ≤ n) :
      i.natAbs < 1000000 :=
    (Nat.length_toDigits_le_iff (b := 10) (k := 6) (by decide) (by decide)).mp (hle.trans hn)
  cases x with
  | nan => exact absurd (hmem 'N' (by decide) (by decide)) (by decide)
  | infinite negative =>
    exact absurd (hmem 'I' (by decide) (by decide)) (by cases negative <;> decide)
  | finite negative m e =>
    have hpoint := hmem '.' (by decide) (by decide)
    have hmark := hmem 'e' (by decide) (by decide)
    simp only [text] at h hpoint hmark
    split at h
    · exact hlength (by decide) (length_toDigits_le h)
    · rename_i hm
      simp only [if_neg hm] at hpoint hmark
      split at h
      · rename_i hscientific
        rw [if_pos hscientific] at hmark
        simp [scientific] at hmark
      · rename_i hpositional
        simp only [if_neg hpositional, String.toList_append, List.mem_append, not_or] at hpoint
        refine hlength ?_ (length_toDigits_le h)
        rw [length_positional hpoint.2]
        omega

end Text

section Read

variable {i : Int} {x : Binary64}

theorem ofRatio_ne_nan (negative : Bool) (num den : Nat) : ofRatio negative num den ≠ .nan := by
  unfold ofRatio
  split
  · nofun
  · dsimp only
    split <;> split <;> nofun

theorem ofDecimal_ne_nan (negative : Bool) (significand : Nat) (power : Int) :
    ofDecimal negative significand power ≠ .nan := by
  rw [ofDecimal]
  split
  · nofun
  · split
    · nofun
    · split <;> exact ofRatio_ne_nan _ _ _

theorem exists_finite_of_readFloat (h : Number.readFloat (toString i).toList = .ok x) :
    ∃ negative m e, x = .finite negative m e := by
  rw [Number.readFloat_toString] at h
  have hnan := ofDecimal_ne_nan (i < 0) i.natAbs 0
  generalize ofDecimal (i < 0) i.natAbs 0 = y at h hnan
  cases y with
  | nan => exact absurd rfl hnan
  | infinite => cases h
  | finite negative m e => exact ⟨negative, m, e, (Except.ok.inj h).symm⟩

theorem ofDecimal_whole (negative : Bool) {n : Nat} (h : n < 1000000) :
    ofDecimal negative n 0 = ofRatio negative n 1 := by
  by_cases h0 : n = 0
  · rw [ofDecimal, if_pos (.inl h0), ofRatio, if_pos h0]
  · have hlength : (Nat.toDigits 10 n).length ≤ 6 :=
      (Nat.length_toDigits_le_iff (by decide) (by decide)).mpr (by omega)
    simp only [ofDecimal, decimalLength, if_neg h0]
    rw [if_neg (by omega), if_neg (by omega), if_pos (by decide)]
    simp

theorem readFloat_whole (h : i.natAbs < 1000000) :
    Number.readFloat (toString i).toList = .ok (ofInt i) := by
  have hwhole : ofInt i = ofDecimal (i < 0) i.natAbs 0 := (ofDecimal_whole _ h).symm
  rw [Number.readFloat_toString, ← hwhole, ofInt]
  by_cases h0 : i.natAbs = 0
  · rw [ofRatio, if_pos h0]
    rfl
  · rw [ofRatio_whole _ h0 (by omega)]

/-- An integer that is read as a floating-point number is written as it was exactly below a million.
-/
theorem text_eq_iff_of_readFloat (h : Number.readFloat (toString i).toList = .ok x) :
    x.text = toString i ↔ i.natAbs < 1000000 := by
  refine ⟨natAbs_lt_of_text_eq, fun hi => ?_⟩
  rw [readFloat_whole hi] at h
  rw [← Except.ok.inj h, text_ofInt hi]

def IsNumberChar (c : Char) : Prop := c.isDigit ∨ c ∈ ['-', '+', '.', 'e']

instance (c : Char) : Decidable (IsNumberChar c) := inferInstanceAs (Decidable (_ ∨ _))

structure IsNumberText (s : List Char) : Prop where
  chars : ∀ c ∈ s, IsNumberChar c
  digit : ∃ c ∈ s, c.isDigit

theorem isNumberChar_of_all {s : List Char} (h : s.all fun c => IsNumberChar c) :
    ∀ c ∈ s, IsNumberChar c := by
  simpa using h

theorem IsNumberText.of_digits {s : List Char} (h : ∀ c ∈ s, c.isDigit) (hs : s ≠ []) :
    IsNumberText s where
  chars c hc := .inl (h c hc)
  digit := by
    obtain ⟨c, r, rfl⟩ := List.exists_cons_of_ne_nil hs
    exact ⟨c, List.mem_cons_self, h c List.mem_cons_self⟩

theorem IsNumberText.before {s t : List Char} (h : IsNumberText s) (ht : ∀ c ∈ t, IsNumberChar c) :
    IsNumberText (t ++ s) where
  chars := by
    simpa only [List.forall_mem_append] using ⟨ht, h.chars⟩
  digit := by
    obtain ⟨c, hc, hdigit⟩ := h.digit
    exact ⟨c, List.mem_append_right t hc, hdigit⟩

theorem IsNumberText.after {s t : List Char} (h : IsNumberText s) (ht : ∀ c ∈ t, IsNumberChar c) :
    IsNumberText (s ++ t) where
  chars := by
    simpa only [List.forall_mem_append] using ⟨h.chars, ht⟩
  digit := by
    obtain ⟨c, hc, hdigit⟩ := h.digit
    exact ⟨c, List.mem_append_left t hc, hdigit⟩

theorem isNumberText_toDigits (n : Nat) : IsNumberText (Nat.toDigits 10 n) :=
  .of_digits (fun _ => Number.isDigit_of_mem_toDigits) Nat.toDigits_ne_nil

theorem isNumberText_toString (i : Int) : IsNumberText (toString i).toList := by
  rw [Number.toList_toString]
  refine (isNumberText_toDigits _).before ?_
  split <;> exact isNumberChar_of_all (by decide)

theorem isNumberChar_replicate_zero (k : Nat) : ∀ c ∈ List.replicate k '0', IsNumberChar c := by
  intro c hc
  rw [List.eq_of_mem_replicate hc]
  decide

theorem isNumberText_positional {digits : List Char} (h : ∀ c ∈ digits, c.isDigit)
    (hne : digits ≠ []) (point : Int) : IsNumberText (positional digits point).toList := by
  rw [positional]
  split
  · rw [String.toList_append]
    refine IsNumberText.before ?_ ?_
    · rw [String.toList_ofList]
      exact (IsNumberText.of_digits h hne).before (isNumberChar_replicate_zero _)
    · exact isNumberChar_of_all (by decide)
  · have hwhole : IsNumberText (digits.take point.toNat ++
        List.replicate (point.toNat - (digits.take point.toNat).length) '0') := by
      refine (IsNumberText.of_digits (fun c hc => h c (List.mem_of_mem_take hc)) ?_).after
        (isNumberChar_replicate_zero _)
      rw [Ne, List.take_eq_nil_iff, not_or]
      exact ⟨by omega, hne⟩
    dsimp only
    split
    · rwa [String.toList_ofList]
    · rw [String.toList_ofList]
      refine hwhole.after ?_
      rw [List.forall_mem_cons]
      exact ⟨by decide, fun c hc => .inl (h c (List.mem_of_mem_drop hc))⟩

theorem isNumberChar_exponentText (exponent : Int) :
    ∀ c ∈ (exponentText exponent).toList, IsNumberChar c := by
  have hdigits : ∀ c ∈ (toString exponent.natAbs).toList, IsNumberChar c := by
    rw [Nat.toString_eq_ofList_toDigits, String.toList_ofList]
    exact (isNumberText_toDigits _).chars
  rw [exponentText, String.toList_append, List.forall_mem_append]
  constructor
  · split <;> exact isNumberChar_of_all (by decide)
  · split
    · rw [String.toList_append, List.forall_mem_append]
      exact ⟨isNumberChar_of_all (by decide), hdigits⟩
    · exact hdigits

theorem isNumberText_scientific {digits : List Char} (h : ∀ c ∈ digits, c.isDigit)
    (hne : digits ≠ []) (exponent : Int) : IsNumberText (scientific digits exponent).toList := by
  have hmantissa {s : List Char} (hs : IsNumberText s) :
      IsNumberText (String.ofList s ++ "e" ++ exponentText exponent).toList := by
    rw [String.toList_append, String.toList_append, String.toList_ofList]
    exact (hs.after (isNumberChar_of_all (by decide))).after (isNumberChar_exponentText exponent)
  unfold scientific
  match digits, hne with
  | [d], _ => exact hmantissa (.of_digits h (List.cons_ne_nil _ _))
  | d :: e :: r, _ =>
    rw [List.forall_mem_cons] at h
    refine hmantissa ((IsNumberText.of_digits (s := [d]) ?_ (List.cons_ne_nil _ _)).after
      (t := '.' :: e :: r) ?_)
    · simpa using h.1
    · rw [List.forall_mem_cons]
      exact ⟨by decide, fun c hc => .inl (h.2 c hc)⟩

theorem isNumberText_text (negative : Bool) (m : Nat) (e : Int) :
    IsNumberText (Binary64.finite negative m e).text.toList := by
  have hsign {s : String} (hs : IsNumberText s.toList) :
      IsNumberText ((if negative then "-" else "") ++ s).toList := by
    rw [String.toList_append]
    refine hs.before ?_
    cases negative <;> exact isNumberChar_of_all (by decide)
  have hdigits (n : Nat) : ∀ c ∈ Nat.toDigits 10 n, c.isDigit :=
    fun _ => Number.isDigit_of_mem_toDigits
  simp only [text]
  split
  · exact hsign (isNumberText_toDigits 0)
  · split
    · exact hsign (isNumberText_scientific (hdigits _) Nat.toDigits_ne_nil _)
    · exact hsign (isNumberText_positional (hdigits _) Nat.toDigits_ne_nil _)

end Read

end DocSite.Binary64
