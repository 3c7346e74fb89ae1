import DocSite.Toml.Reader
import DocSite.Text.Order
import Mathlib.Data.List.Basic

namespace DocSite.Toml

section Text

theorem codePoint?_of_isForbidden {c : Char} (h : isForbidden c) (rest : Rest) :
    codePoint? 4 ('0' :: '0' :: upperHex (c.toNat / 16) :: upperHex (c.toNat % 16) :: rest) =
      some c := by
  have hcode : ∀ n < 128, isForbidden (Char.ofNat n) →
      hexNumber? ['0', '0', upperHex (n / 16), upperHex (n % 16)] = some n := by
    decide +kernel
  have hlt : c.toNat < 128 := by
    simp only [isForbidden, Bool.or_eq_true, Bool.and_eq_true, decide_eq_true_eq, beq_iff_eq] at h
    omega
  have hnumber := hcode c.toNat hlt (by rwa [Char.ofNat_toNat])
  have hvalid : ¬(0x10ffff < c.toNat ∨ (0xd800 ≤ c.toNat ∧ c.toNat < 0xe000)) := by omega
  simp [codePoint?, hnumber, hvalid]

theorem escapeChar_cases (c : Char) :
    (∃ e : List Char, escapeChar c = '\\' :: e ∧ ∀ rest, escape? (e ++ rest) = some (c, rest)) ∨
      (escapeChar c = [c] ∧ c ≠ '"' ∧ c ≠ '\\' ∧ c ≠ '\n' ∧ c ≠ '\r' ∧ isForbidden c = false) := by
  unfold escapeChar
  split
  case h_1 => exact .inl ⟨['\\'], rfl, fun _ => rfl⟩
  case h_2 => exact .inl ⟨['"'], rfl, fun _ => rfl⟩
  case h_3 => exact .inl ⟨['n'], rfl, fun _ => rfl⟩
  case h_4 => exact .inl ⟨['r'], rfl, fun _ => rfl⟩
  case h_5 => exact .inl ⟨['t'], rfl, fun _ => rfl⟩
  case h_6 hslash hquote hn hr ht =>
    split
    case isTrue h =>
      obtain rfl : c = '\x08' := Char.toNat_inj.mp h
      exact .inl ⟨['b'], rfl, fun _ => rfl⟩
    case isFalse =>
      split
      case isTrue h =>
        obtain rfl : c = '\x0c' := Char.toNat_inj.mp h
        exact .inl ⟨['f'], rfl, fun _ => rfl⟩
      case isFalse =>
        split
        case isTrue h =>
          refine .inl ⟨_, rfl, fun rest => ?_⟩
          simp [escape?, codePoint?_of_isForbidden h]
        case isFalse h => exact .inr ⟨rfl, hquote, hslash, hn, hr, by simpa using h⟩

theorem basicText_escapeChars {s rest : List Char} {fuel : Nat} (hfuel : s.length < fuel)
    (text : List Char) :
    basicText fuel text (s.flatMap escapeChar ++ '"' :: rest) =
      some (text.reverse ++ s, rest) := by
  induction s generalizing fuel text with
  | nil =>
    obtain ⟨fuel, rfl⟩ := Nat.exists_eq_add_of_lt hfuel
    simp [basicText]
  | cons c r ih =>
    cases fuel with
    | zero => simp at hfuel
    | succ fuel =>
      have hfuel : r.length < fuel := by simpa using hfuel
      rcases escapeChar_cases c with ⟨e, hc, he⟩ | ⟨hc, hquote, hslash, hn, hr, hforbidden⟩
      · have hstep := he (r.flatMap escapeChar ++ '"' :: rest)
        simp [basicText, hc, isForbidden, hstep, ih hfuel]
      · simp [basicText, hc, hquote, hslash, hn, hr, hforbidden, ih hfuel]

theorem literalText_of_isLiteral {s : List Char} (h : isLiteral s) (text rest : List Char) :
    literalText text (s ++ '\'' :: rest) = some (text.reverse ++ s, rest) := by
  induction s generalizing text with
  | nil => simp [literalText]
  | cons c r ih =>
    simp only [isLiteral, List.all_cons, Bool.and_eq_true, bne_iff_ne, Bool.not_eq_true'] at h
    obtain ⟨⟨⟨⟨hquote, hr⟩, hn⟩, hforbidden⟩, hrest⟩ := h
    have ih := ih (by simpa [isLiteral] using hrest)
    simp [literalText, hquote, hr, hn, hforbidden, ih]

theorem length_le_flatMap_escapeChar (s : List Char) :
    s.length ≤ (s.flatMap escapeChar).length := by
  induction s with
  | nil => simp
  | cons c r ih =>
    have hpos : 0 < (escapeChar c).length := by
      rcases escapeChar_cases c with ⟨e, hc, _⟩ | ⟨hc, _⟩ <;> simp [hc]
    simp only [List.flatMap_cons, List.length_append, List.length_cons]
    omega

theorem shortText?_writeText (s rest : List Char) :
    shortText? (writeText s ++ rest) = some (s, rest) := by
  rw [writeText]
  split
  case isTrue h => simpa [shortText?] using literalText_of_isLiteral h [] rest
  case isFalse =>
    have hfuel : s.length < (s.flatMap escapeChar ++ '"' :: rest).length + 1 := by
      rw [List.length_append]
      exact Nat.lt_succ_of_le (Nat.le_add_right_of_le (length_le_flatMap_escapeChar s))
    simpa [shortText?] using basicText_escapeChars hfuel []

theorem text?_writeText (s : List Char) {rest : List Char} (hrest : rest.head? ≠ some '\'') :
    text? (writeText s ++ rest) = some (s, rest) := by
  -- no third quote follows the two of an empty text
  have hshort : text? (writeText s ++ rest) = shortText? (writeText s ++ rest) := by
    unfold text?
    split
    case h_1 r heq =>
      rw [writeText] at heq
      split at heq
      · simp at heq
      · cases s with
        | nil => simp_all [isLiteral]
        | cons c t => rcases escapeChar_cases c with ⟨e, hc, _⟩ | ⟨hc, hquote, _⟩ <;> simp_all
    case h_2 r heq =>
      rw [writeText] at heq
      split at heq
      · cases s with
        | nil => simp_all
        | cons c t => simp_all [isLiteral]
      · simp at heq
    case h_3 => rfl
  rw [hshort, shortText?_writeText]

end Text

section Key

theorem exists_writeText_eq_cons (s : List Char) :
    ∃ c t, writeText s = c :: t ∧ (c = '"' ∨ c = '\'') := by
  rw [writeText]
  split
  · exact ⟨'\'', _, rfl, .inr rfl⟩
  · exact ⟨'"', _, rfl, .inl rfl⟩

def EndsKey (rest : Rest) : Prop := ∀ c ∈ rest.head?, isBareKeyChar c = false

theorem keyPart?_bare {key : String} (hall : ∀ c ∈ key.toList, isBareKeyChar c) (hne : key ≠ "")
    {rest : Rest} (h : EndsKey rest) : keyPart? (key.toList ++ rest) = some (key, rest) := by
  have htake : (key.toList ++ rest).takeWhile isBareKeyChar = key.toList := by
    rw [List.takeWhile_append_of_pos hall]
    cases rest with
    | nil => simp
    | cons c r => simp [h c rfl]
  have hempty : key.toList.isEmpty = false := by simpa using hne
  have hfirst {c : Char} {t : Rest} (heq : key.toList ++ rest = c :: t) : isBareKeyChar c := by
    cases hk : key.toList with
    | nil => simp [hk] at hempty
    | cons d r => simp_all
  unfold keyPart?
  split
  case h_1 heq => exact absurd (hfirst heq) (by decide)
  case h_2 heq => exact absurd (hfirst heq) (by decide)
  case h_3 => simp [htake, hempty]

theorem writeKey_cases (key : String) :
    ((∀ c ∈ key.toList, isBareKeyChar c) ∧ key ≠ "" ∧ writeKey key = key.toList) ∨
      writeKey key = writeText key.toList := by
  rw [writeKey]
  split
  case isTrue hbare =>
    simp only [Bool.and_eq_true, List.all_eq_true, bne_iff_ne] at hbare
    exact .inl ⟨hbare.1, hbare.2, rfl⟩
  case isFalse => exact .inr rfl

theorem keyPart?_writeKey (key : String) {rest : Rest} (h : EndsKey rest) :
    keyPart? (writeKey key ++ rest) = some (key, rest) := by
  obtain ⟨hall, hne, hkey⟩ | hkey := writeKey_cases key
  · rw [hkey]
    exact keyPart?_bare hall hne h
  · have hread := shortText?_writeText key.toList rest
    obtain ⟨c, t, hc, rfl | rfl⟩ := exists_writeText_eq_cons key.toList <;>
      simp_all [keyPart?]

theorem exists_writeKey_eq_cons (key : String) :
    ∃ c t, writeKey key = c :: t ∧ isBlank c = false ∧ c ≠ '#' ∧ c ≠ '\n' ∧ c ≠ '\r' ∧
      c ≠ '[' := by
  obtain ⟨hall, hne, hkey⟩ | hkey := writeKey_cases key <;> rw [hkey]
  · obtain ⟨c, t, hcons⟩ := List.exists_cons_of_ne_nil (l := key.toList) (by simpa using hne)
    have hc := hall c (by simp [hcons])
    refine ⟨c, t, hcons, ?_, ?_, ?_, ?_, ?_⟩
    · by_contra hblank
      simp only [isBlank, Bool.not_eq_false, Bool.or_eq_true, beq_iff_eq] at hblank
      rcases hblank with rfl | rfl <;> exact absurd hc (by decide)
    all_goals
      rintro rfl
      exact absurd hc (by decide)
  · obtain ⟨c, t, hc, rfl | rfl⟩ := exists_writeText_eq_cons key.toList <;>
      exact ⟨_, t, hc, by decide⟩

theorem skipBlanks_of_head {c : Char} (h : isBlank c = false) (r : Rest) :
    skipBlanks (c :: r) = c :: r := by
  simp [skipBlanks, h]

theorem skipBlanks_writeKey (key : String) (rest : Rest) :
    skipBlanks (writeKey key ++ rest) = writeKey key ++ rest := by
  obtain ⟨c, t, hc, hblank, -⟩ := exists_writeKey_eq_cons key
  rw [hc, List.cons_append, skipBlanks_of_head hblank]

theorem key?_writePath {path : List String} (hpath : path ≠ []) {rest : Rest}
    (hends : EndsKey rest) (hpoint : (skipBlanks rest).head? ≠ some '.') {fuel : Nat}
    (hfuel : path.length ≤ fuel) :
    key? fuel (writePath path ++ rest) = some (path, skipBlanks rest) := by
  induction path generalizing fuel with
  | nil => exact absurd rfl hpath
  | cons key r ih =>
    cases fuel with
    | zero => simp at hfuel
    | succ fuel =>
      cases r with
      | nil =>
        rw [writePath, key?, keyPart?_writeKey key hends]
        simp only [Option.bind_eq_bind, Option.bind_some]
        split
        · simp_all
        · rfl
      | cons next r =>
        have hends : EndsKey ('.' :: (writePath (next :: r) ++ rest)) := by
          simp [EndsKey, isBareKeyChar]
        have hskip : skipBlanks (writePath (next :: r) ++ rest) =
          writePath (next :: r) ++ rest := by
          cases r <;> simp [writePath, skipBlanks_writeKey]
        have hlen : (next :: r).length ≤ fuel := by simpa using hfuel
        have hrest := ih (by simp) hlen
        rw [writePath, List.append_assoc, List.cons_append, key?, keyPart?_writeKey key hends]
        · simp [skipBlanks_of_head (show isBlank '.' = false from rfl), hskip, hrest]
        · simp

theorem length_le_writePath (path : List String) : path.length ≤ (writePath path).length := by
  induction path with
  | nil => simp
  | cons key r ih =>
    obtain ⟨c, t, hc, -⟩ := exists_writeKey_eq_cons key
    cases r with
    | nil => simp [writePath, hc]
    | cons next r =>
      rw [writePath]
      · simp only [hc, List.length_append, List.length_cons] at *
        omega
      · simp

end Key

section Value

/-- The values that are written after a key on its line: texts, truth values and the empty array. -/
inductive OnLine : Value → Prop
  | text (s : String) : OnLine (.text s)
  | bool (b : Bool) : OnLine (.bool b)
  | nil : OnLine (.list [])

theorem value?_writeInline {v : Value} (h : OnLine v) (fuel : Nat) (rest : Rest) :
    value? (fuel + 2) (writeInline v ++ '\n' :: rest) = some (v, '\n' :: rest) := by
  cases h with
  | text s =>
    have hhead : ('\n' :: rest).head? ≠ some '\'' := by simp
    have hread := text?_writeText s.toList hhead
    rw [writeInline, writeScalar]
    obtain ⟨c, t, hc, rfl | rfl⟩ := exists_writeText_eq_cons s.toList <;>
      simp_all [value?, scalar?]
  | bool b => cases b <;> rfl
  | nil => rfl

theorem OnLine.skipBlanks_writeInline {v : Value} (h : OnLine v) (rest : Rest) :
    skipBlanks (writeInline v ++ rest) = writeInline v ++ rest := by
  cases h with
  | text s =>
    rw [writeInline, writeScalar]
    obtain ⟨c, t, hc, rfl | rfl⟩ := exists_writeText_eq_cons s.toList <;>
      rw [hc, List.cons_append, skipBlanks_of_head (by decide)]
  | bool b => cases b <;> rfl
  | nil => rfl

end Value

end DocSite.Toml
