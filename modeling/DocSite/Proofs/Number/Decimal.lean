import DocSite.Number.Reader
import DocSite.Toml.Lexeme
import DocSite.Yaml.Resolution
import Mathlib.Algebra.Group.Nat.Defs
import Mathlib.Data.List.TakeWhile

namespace DocSite

namespace Number

theorem toList_toString (i : Int) :
    (toString i).toList = (if i < 0 then ['-'] else []) ++ Nat.toDigits 10 i.natAbs := by
  rw [Int.toString_eq_repr, Int.repr_eq_if]
  by_cases hi : 0 ≤ i
  · have habs : i.toNat = i.natAbs := by omega
    rw [if_pos hi, if_neg (by omega), Nat.repr_eq_ofList_toDigits, String.toList_ofList,
      List.nil_append, habs]
  · have habs : (-i).toNat = i.natAbs := by omega
    rw [if_neg hi, if_pos (by omega), Nat.repr_eq_ofList_toDigits, String.toList_append,
      String.toList_ofList, String.toList_ofList, habs]

theorem isDigit_of_mem_toDigits {n : Nat} {c : Char} (h : c ∈ Nat.toDigits 10 n) : c.isDigit :=
  Nat.isDigit_of_mem_toDigits (by decide) (by decide) h

theorem ne_of_isDigit {c d : Char} (h : c.isDigit) (hd : d.isDigit = false) : c ≠ d := by
  rintro rfl
  rw [h] at hd
  cases hd

theorem toDigits_ne_cons {n : Nat} {c : Char} {r : List Char} (h : c.isDigit = false) :
    Nat.toDigits 10 n ≠ c :: r := by
  intro heq
  have hmem : c ∈ Nat.toDigits 10 n := by
    rw [heq]
    exact List.mem_cons_self
  exact ne_of_isDigit (isDigit_of_mem_toDigits hmem) h rfl

theorem head?_toDigits {n : Nat} (h : n ≠ 0) : (Nat.toDigits 10 n).head? ≠ some '0' := by
  have hdigit : ∀ d < 10, d ≠ 0 → Nat.digitChar d ≠ '0' := by decide
  induction n using Nat.strongRecOn with
  | _ n ih =>
    by_cases hn : n < 10
    · rw [Nat.toDigits_of_lt_base hn]
      simpa using hdigit n hn h
    · have ih := ih (n / 10) (by omega) (by omega)
      obtain ⟨c, r, hc⟩ := List.exists_cons_of_ne_nil (Nat.toDigits_ne_nil (n := n / 10) (b := 10))
      rw [hc] at ih
      rw [Nat.toDigits_of_base_le (by decide) (by omega), hc]
      exact ih

theorem toDigits_cases (n : Nat) : n = 0 ∧ Nat.toDigits 10 n = ['0'] ∨
    ∃ c r, Nat.toDigits 10 n = c :: r ∧ c.isDigit ∧ c ≠ '0' := by
  by_cases hn : n = 0
  · exact .inl ⟨hn, by rw [hn]; decide⟩
  · obtain ⟨c, r, hc⟩ := List.exists_cons_of_ne_nil (Nat.toDigits_ne_nil (n := n) (b := 10))
    have hzero := head?_toDigits hn
    have hdigit : c ∈ Nat.toDigits 10 n := by simp [hc]
    exact .inr ⟨c, r, hc, isDigit_of_mem_toDigits hdigit, by simpa [hc] using hzero⟩

theorem digitValue?_of_isDigit {c : Char} (h : c.isDigit) :
    digitValue? c = some (c.toNat - '0'.toNat) ∧ c.toNat - '0'.toNat < 10 := by
  have hrange : '0' ≤ c ∧ c ≤ '9' := by simpa [Char.isDigit, Char.le_def] using h
  refine ⟨by rw [digitValue?, if_pos hrange], ?_⟩
  have hnine : c.toNat ≤ '9'.toNat := hrange.2
  have : '9'.toNat = 57 := rfl
  have : '0'.toNat = 48 := rfl
  omega

theorem readDigits?_of_digits {l : List Char} (h : ∀ c ∈ l, c.isDigit) (n : Nat) :
    readDigits? 10 n l = some (Nat.ofDigitChars 10 l n) := by
  induction l generalizing n with
  | nil => rw [readDigits?, Nat.ofDigitChars_nil]
  | cons c r ih =>
    rw [List.forall_mem_cons] at h
    obtain ⟨hvalue, hlt⟩ := digitValue?_of_isDigit h.1
    simp only [readDigits?, hvalue, if_pos hlt]
    rw [ih h.2, Nat.ofDigitChars_cons]

theorem readNat?_toDigits (n : Nat) : readNat? 10 (Nat.toDigits 10 n) = some n := by
  have hne : (Nat.toDigits 10 n).isEmpty = false := by simp [Nat.toDigits_ne_nil]
  rw [readNat?, hne, if_neg (by decide), readDigits?_of_digits fun _ => isDigit_of_mem_toDigits,
    Nat.ofDigitChars_ten_toDigits]

theorem readPrefixed?_toDigits (n : Nat) : readPrefixed? (Nat.toDigits 10 n) = some n := by
  obtain ⟨rfl, h⟩ | ⟨c, r, h, hdigit, hzero⟩ := toDigits_cases n
  · decide
  · have hread := readNat?_toDigits n
    rw [h] at hread ⊢
    rw [readPrefixed?]
    · exact hread
    · nofun
    · rintro rest hrest
      exact hzero (List.cons.inj hrest).1

theorem readSigned?_toString {read : List Char → Option Nat}
    (h : ∀ n, read (Nat.toDigits 10 n) = some n) (i : Int) :
    readSigned? read (toString i).toList = some i := by
  rw [toList_toString]
  by_cases hi : i < 0
  · rw [if_pos hi, List.singleton_append, readSigned?, h]
    exact congrArg some (show -(i.natAbs : Int) = i by omega)
  · rw [if_neg hi, List.nil_append]
    rw [readSigned?, h]
    · exact congrArg some (show (i.natAbs : Int) = i by omega)
    · exact fun r => toDigits_ne_cons (by decide)
    · exact fun r => toDigits_ne_cons (by decide)

theorem mem_toString {i : Int} {c : Char} (h : c ∈ (toString i).toList) : c.isDigit ∨ c = '-' := by
  rw [toList_toString, List.mem_append] at h
  obtain h | h := h
  · split at h
    · exact .inr (by simpa using h)
    · cases h
  · exact .inl (isDigit_of_mem_toDigits h)

theorem not_mem_toString {i : Int} {c : Char} (hdigit : c.isDigit = false) (hsign : c ≠ '-') :
    c ∉ (toString i).toList := by
  intro h
  obtain h | h := mem_toString h
  · rw [hdigit] at h
    cases h
  · exact hsign h

theorem lower_toDigits_ne (n : Nat) {word : String}
    (h : word.toList.head?.any Char.isDigit = false) :
    String.ofList ((Nat.toDigits 10 n).map lower) ≠ word := by
  rintro rfl
  obtain ⟨c, r, hc⟩ := List.exists_cons_of_ne_nil (Nat.toDigits_ne_nil (n := n) (b := 10))
  have hdigit : c.isDigit := isDigit_of_mem_toDigits (n := n) (by rw [hc]; exact List.mem_cons_self)
  have hbelow : ¬(c.val ≥ 'A'.val ∧ c.val ≤ 'Z'.val) := by grind [Char.isDigit]
  have hlower : c.toLower = c := dif_neg hbelow
  rw [String.toList_ofList, hc] at h
  simp [lower, hlower, hdigit] at h

theorem readWord?_toString (i : Int) : readWord? (toString i).toList = none := by
  have hword (word : String) (h : word.toList.head?.any Char.isDigit = false) :=
    lower_toDigits_ne i.natAbs h
  have hinf := hword "inf" (by decide)
  have hinfinity := hword "infinity" (by decide)
  have hnan := hword "nan" (by decide)
  rw [toList_toString]
  by_cases hi : i < 0
  · rw [if_pos hi, List.singleton_append]
    simp [readWord?, hinf, hinfinity]
  · rw [if_neg hi, List.nil_append]
    unfold readWord?
    split
    · exact absurd ‹_› (toDigits_ne_cons (by decide))
    · exact absurd ‹_› (toDigits_ne_cons (by decide))
    · simp [hinf, hinfinity, hnan]

theorem readMantissa_digits {l : List Char} (h : ∀ c ∈ l, c.isDigit) (m : Mantissa)
    (hpoint : m.point = false) : readMantissa 10 m l =
      ({ m with value := Nat.ofDigitChars 10 l m.value, any := m.any || !l.isEmpty }, []) := by
  induction l generalizing m with
  | nil => simp [readMantissa, Nat.ofDigitChars_nil]
  | cons c r ih =>
    rw [List.forall_mem_cons] at h
    obtain ⟨hvalue, hlt⟩ := digitValue?_of_isDigit h.1
    simp only [readMantissa, if_neg (ne_of_isDigit h.1 (d := '_') (by decide)),
      if_neg (ne_of_isDigit h.1 (d := '.') (by decide)), hvalue, if_pos hlt]
    rw [ih h.2, Nat.ofDigitChars_cons, Nat.mul_comm]
    · simp [hpoint]
    · exact hpoint

theorem readDecimal_toDigits (negative : Bool) (n : Nat) :
    readDecimal negative (Nat.toDigits 10 n) = .ok (.ofDecimal negative n 0) := by
  have hne : (Nat.toDigits 10 n).isEmpty = false := by simp [Nat.toDigits_ne_nil]
  rw [readDecimal, readMantissa_digits (fun _ => isDigit_of_mem_toDigits) _ rfl]
  simp [hne, Nat.ofDigitChars_ten_toDigits, readExponent?]

theorem readFloat_toString (i : Int) : readFloat (toString i).toList =
    match Binary64.ofDecimal (i < 0) i.natAbs 0 with
    | .infinite _ => .error .range
    | x => .ok x := by
  have hword := readWord?_toString i
  have hunderscore : (toString i).toList.contains '_' = false := by
    rw [List.contains_eq_mem, decide_eq_false_iff_not]
    exact not_mem_toString (by decide) (by decide)
  have hbase {x d : Char} {r : List Char} : Nat.toDigits 10 i.natAbs ≠ '0' :: x :: d :: r := by
    intro heq
    obtain ⟨-, h⟩ | ⟨c, t, h, -, hzero⟩ := toDigits_cases i.natAbs
    · rw [h] at heq
      cases heq
    · rw [h] at heq
      exact hzero (List.cons.inj heq).1
  rw [toList_toString] at hword hunderscore ⊢
  by_cases hi : i < 0
  · rw [if_pos hi, List.singleton_append] at hword hunderscore ⊢
    unfold readFloat
    simp only [hword, hunderscore, readDecimal_toDigits, decide_eq_true hi]
    rfl
  · rw [if_neg hi, List.nil_append] at hword hunderscore ⊢
    have hplus {r : List Char} : Nat.toDigits 10 i.natAbs ≠ '+' :: r := toDigits_ne_cons (by decide)
    have hminus {r : List Char} : Nat.toDigits 10 i.natAbs ≠ '-' :: r :=
      toDigits_ne_cons (by decide)
    unfold readFloat
    simp only [hword, hunderscore, readDecimal_toDigits, decide_eq_false hi]
    rfl

end Number

namespace Toml

open Number

theorem dropUnderscores_of_not_mem {s : List Char} (h : '_' ∉ s) : dropUnderscores s = s := by
  rw [dropUnderscores, List.filter_eq_self]
  rintro c hc
  have : c ≠ '_' := by
    rintro rfl
    exact h hc
  simpa using this

theorem underscoresBetween_of_not_mem {isDigit : Char → Bool} {s : List Char} (h : '_' ∉ s)
    (before : Bool) : underscoresBetween isDigit before s := by
  induction s generalizing before with
  | nil => rfl
  | cons c r ih =>
    rw [List.mem_cons, not_or] at h
    rw [underscoresBetween, if_neg (Ne.symm h.1)]
    exact ih h.2 _

theorem startsMoment_toString (i : Int) : startsMoment (toString i).toList = false := by
  rw [toList_toString]
  split
  · unfold startsMoment
    split
    · rename_i a b c r heq
      obtain ⟨rfl, -⟩ := List.cons.inj heq
      rfl
    · rfl
  · have hdigits : ∀ c ∈ Nat.toDigits 10 i.natAbs, c.isDigit := fun _ => isDigit_of_mem_toDigits
    rw [List.nil_append]
    unfold startsMoment
    split
    · rename_i a b c r heq
      rw [heq] at hdigits
      have hcolon : c ≠ ':' := ne_of_isDigit (hdigits c (by simp)) (by decide)
      split
      · rename_i d e _
        have hdash : e ≠ '-' := ne_of_isDigit (hdigits e (by simp)) (by decide)
        simp [hcolon, hdash]
      · simp [hcolon]
    · rfl

theorem number?_toString (i : Int) :
    number? (toString i).toList = decimal? (toString i).toList := by
  unfold number?
  split
  · rename_i mark c r heq
    rw [toList_toString] at heq
    obtain ⟨-, h⟩ | ⟨d, t, h, -, hzero⟩ := toDigits_cases i.natAbs <;> rw [h] at heq <;>
      split at heq <;> simp at heq
    exact absurd heq.1 hzero
  · rfl

theorem decimalInteger?_toString (i : Int) : decimalInteger? (toString i).toList =
    if fitsSigned 64 i then some (.integer .signed i) else none := by
  have hunderscore : '_' ∉ (toString i).toList := not_mem_toString (by decide) (by decide)
  have hdigits : '_' ∉ Nat.toDigits 10 i.natAbs := Nat.underscore_not_in_toDigits
  have hzero : ¬(1 < (Nat.toDigits 10 i.natAbs).length ∧
      (Nat.toDigits 10 i.natAbs).head? = some '0') := by
    rintro ⟨hlength, hhead⟩
    obtain ⟨-, h⟩ | ⟨d, t, h, -, hne⟩ := toDigits_cases i.natAbs
    · simp [h] at hlength
    · simp [h, hne] at hhead
  have hguard : (!underscoresBetween Char.isDigit false (Nat.toDigits 10 i.natAbs) ||
      (1 < (dropUnderscores (Nat.toDigits 10 i.natAbs)).length &&
        (dropUnderscores (Nat.toDigits 10 i.natAbs)).head? == some '0')) = false := by
    rw [underscoresBetween_of_not_mem hdigits, dropUnderscores_of_not_mem hdigits]
    simpa using hzero
  have hread : integer? (readSigned? (readNat? 10) (dropUnderscores (toString i).toList)) =
      if fitsSigned 64 i then some (.integer .signed i) else none := by
    rw [dropUnderscores_of_not_mem hunderscore, readSigned?_toString readNat?_toDigits, integer?,
      Option.filter_some]
    cases fitsSigned 64 i <;> rfl
  have hbody : decimalInteger? (toString i).toList =
      integer? (readSigned? (readNat? 10) (dropUnderscores (toString i).toList)) := by
    rw [toList_toString]
    by_cases hi : i < 0
    · rw [if_pos hi, List.singleton_append]
      simp only [decimalInteger?]
      rw [if_neg (by simpa using hguard)]
    · rw [if_neg hi, List.nil_append]
      unfold decimalInteger?
      split
      · exact absurd ‹_› (toDigits_ne_cons (by decide))
      · exact absurd ‹_› (toDigits_ne_cons (by decide))
      · rw [if_neg (by simpa using hguard)]
  rw [hbody, hread]

theorem decimal?_toString (i : Int) : decimal? (toString i).toList =
    if fitsSigned 64 i then some (.integer .signed i, []) else none := by
  have htake : (toString i).toList.takeWhile isNumberChar = (toString i).toList := by
    rw [List.takeWhile_eq_self_iff]
    intro c hc
    obtain h | rfl := mem_toString hc
    · rw [isNumberChar, h]
      rfl
    · decide
  have hempty : (toString i).toList.isEmpty = false := by
    rw [toList_toString]
    simp
  have hfloat : ((toString i).toList.any fun c => c == '.' || c == 'e' || c == 'E') = false := by
    rw [List.any_eq_false]
    intro c hc
    obtain h | rfl := mem_toString hc
    · simp [ne_of_isDigit h (d := '.') (by decide), ne_of_isDigit h (d := 'e') (by decide),
        ne_of_isDigit h (d := 'E') (by decide)]
    · decide
  simp only [decimal?, htake, List.drop_length, hempty, hfloat, decimalInteger?_toString]
  cases fitsSigned 64 i <;> rfl

theorem scalar?_toString (i : Int) : scalar? (toString i).toList =
    if fitsSigned 64 i then some (.integer .signed i, []) else none := by
  have hhead {c : Char} {r : List Char} (h : (toString i).toList = c :: r) :
      c.isDigit ∨ c = '-' := by
    refine mem_toString (i := i) ?_
    rw [h]
    exact List.mem_cons_self
  unfold scalar?
  split
  · rename_i heq
    rw [toList_toString] at heq
    simp at heq
  · exact absurd (hhead ‹_›) (by decide)
  · exact absurd (hhead ‹_›) (by decide)
  · exact absurd (hhead ‹_›) (by decide)
  · exact absurd (hhead ‹_›) (by decide)
  · rw [startsMoment_toString, if_neg (by decide), number?_toString, decimal?_toString]

end Toml

namespace Yaml

open Number

theorem lookup_words_toString (i : Int) : words.lookup (toString i) = none := by
  have hwords : words.all fun w => w.1.toList.getLast?.all fun c => !c.isDigit := by decide +kernel
  have hlast : ∃ c ∈ (toString i).toList.getLast?, c.isDigit := by
    obtain ⟨r, c, hc⟩ := List.eq_nil_or_concat (Nat.toDigits 10 i.natAbs) |>.resolve_left
      Nat.toDigits_ne_nil
    refine ⟨c, ?_, isDigit_of_mem_toDigits (n := i.natAbs) (by simp [hc])⟩
    rw [toList_toString, hc]
    simp
  rw [List.lookup_eq_none_iff]
  intro w hw
  obtain ⟨c, hc, hdigit⟩ := hlast
  have heq : toString i ≠ w.1 := ?_
  · simpa using heq
  intro heq
  have hword := List.all_eq_true.mp hwords w hw
  rw [← heq, Option.mem_def.mp hc, Option.all_some, hdigit] at hword
  cases hword

theorem timestamp?_toString (i : Int) : timestamp? (toString i).toList = none := by
  have hdate : date? (toString i).toList = none := by
    rw [toList_toString, date?]
    by_cases hi : i < 0
    · rw [if_pos hi]
      rfl
    · rw [if_neg hi, List.nil_append]
      have hdrop : (Nat.toDigits 10 i.natAbs).dropWhile Char.isDigit = [] :=
        List.dropWhile_eq_nil_iff.mpr fun _ => isDigit_of_mem_toDigits
      rw [hdrop]
      simp [expect?]
  rw [timestamp?, hdate]
  rfl

theorem readPrefixed?_toString (i : Int) :
    readPrefixed? (toString i).toList = if i < 0 then none else some i.natAbs := by
  rw [toList_toString]
  by_cases hi : i < 0
  · rw [if_pos hi, if_pos hi]
    rfl
  · rw [if_neg hi, if_neg hi, List.nil_append, readPrefixed?_toDigits]

theorem markedInteger?_toString (i : Int) : markedInteger? (toString i).toList = none := by
  have hmark {c : Char} (hc : c.isDigit = false ∧ c ≠ '-') (before r : List Char) :
      (toString i).toList ≠ before ++ c :: r := by
    intro heq
    exact not_mem_toString (i := i) hc.1 hc.2 (by rw [heq]; simp)
  unfold markedInteger?
  split
  · exact absurd ‹_› (hmark (c := 'b') (by decide) ['0'] _)
  · exact absurd ‹_› (hmark (c := 'b') (by decide) ['-', '0'] _)
  · exact absurd ‹_› (hmark (c := 'o') (by decide) ['0'] _)
  · exact absurd ‹_› (hmark (c := 'o') (by decide) ['-', '0'] _)
  · rfl

theorem prefixedInteger?_toString {i j : Int} {w : IntWidth}
    (h : prefixedInteger? (toString i).toList = some (.integer w j)) : j = i ∧ w ≠ .other := by
  rw [prefixedInteger?, readSigned?_toString readPrefixed?_toDigits, readPrefixed?_toString,
    integerScalar?, Option.filter_some] at h
  split at h
  · rename_i k hk
    split at hk
    · cases hk
      cases h
      exact ⟨rfl, nofun⟩
    · cases hk
  · split at h
    · rename_i n hn
      cases h
      split at hn
      · cases hn
      · obtain ⟨hn, -⟩ := Option.filter_eq_some_iff.mp hn
        cases hn
        exact ⟨by omega, nofun⟩
    · cases h

theorem numeric?_toString (i : Int) : numeric? true (toString i).toList =
    (prefixedInteger? (toString i).toList <|> decimal? (toString i).toList) := by
  have hplain : (toString i).toList.filter (· != '_') = (toString i).toList :=
    Toml.dropUnderscores_of_not_mem (not_mem_toString (by decide) (by decide))
  simp only [numeric?, hplain, timestamp?_toString, markedInteger?_toString, if_true]
  cases prefixedInteger? (toString i).toList <;> cases decimal? (toString i).toList <;> rfl

theorem eq_of_resolve_toString {i j : Int} {w : IntWidth}
    (h : resolve (toString i) = .integer w j) :
    j = i ∧ w ≠ .other := by
  rw [resolve, resolveWith, lookup_words_toString] at h
  simp only at h
  split at h
  · cases h
  · rename_i c r hc
    have hhead : c.isDigit ∨ c = '-' := mem_toString (i := i) (by rw [hc]; exact List.mem_cons_self)
    have hpoint : c ≠ '.' := by
      rintro rfl
      exact absurd hhead (by decide)
    have hnumeric : (c.isDigit || c == '+' || c == '-') = true := by
      obtain hdigit | rfl := hhead
      · simp [hdigit]
      · rfl
    rw [if_neg hpoint, if_pos hnumeric, numeric?_toString] at h
    cases hinteger : prefixedInteger? (toString i).toList with
    | some x =>
      rw [hinteger] at h
      obtain rfl : x = .integer w j := h
      exact prefixedInteger?_toString hinteger
    | none =>
      rw [hinteger, decimal?] at h
      split at h
      · cases hread : readFloat (toString i).toList <;> rw [hread] at h <;> cases h
      · cases h

end Yaml

end DocSite
