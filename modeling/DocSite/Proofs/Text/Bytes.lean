import DocSite.Text.Order
import Mathlib.Data.List.Infix

namespace DocSite.Text

theorem toList_toUTF8 (s : String) :
    s.toUTF8.data.toList = s.toList.flatMap String.utf8EncodeChar := by
  rw [String.toUTF8_eq_toByteArray, ← String.utf8Encode_toList, List.utf8Encode,
    List.data_toByteArray]

theorem toUInt8_ofUInt8 (b : UInt8) : (Char.ofUInt8 b).toUInt8 = b :=
  UInt8.toUInt8_toUInt32 b

theorem toNat_ofUInt8 (b : UInt8) : (Char.ofUInt8 b).toNat = b.toNat := rfl

variable {c : Char} {s text : List Char} {bytes : List UInt8}

theorem toNat_toUInt8 (h : c.toNat < 128) : c.toUInt8.toNat = c.toNat :=
  Nat.mod_eq_of_lt (h.trans (by decide))

theorem ofUInt8_toUInt8 (h : c.toNat < 128) : Char.ofUInt8 c.toUInt8 = c :=
  Char.toNat_inj.mp (by rw [toNat_ofUInt8, toNat_toUInt8 h])

theorem utf8EncodeChar_cases (c : Char) :
    (c.toNat < 128 ∧ String.utf8EncodeChar c = [c.toUInt8]) ∨
      128 ≤ c.toNat ∧ ∃ b r, String.utf8EncodeChar c = b :: r ∧ 128 ≤ b.toNat := by
  have hval : c.toNat = c.val.toNat := rfl
  fun_cases String.utf8EncodeChar c with
  | case1 v h => exact .inl ⟨by omega, rfl⟩
  | case2 v h | case3 v h | case4 v h =>
    refine .inr ⟨by omega, _, _, rfl, ?_⟩
    rw [UInt8.toNat_ofNat']
    omega

theorem map_ofUInt8_map_toUInt8 (h : ∀ c ∈ text, c.toNat < 128) :
    (text.map Char.toUInt8).map Char.ofUInt8 = text := by
  have hid : ∀ c ∈ text, (Char.ofUInt8 ∘ Char.toUInt8) c = c := fun c hc =>
    ofUInt8_toUInt8 (h c hc)
  rw [List.map_map, List.map_congr_left hid, List.map_id']

theorem map_toUInt8_map_ofUInt8 (bytes : List UInt8) :
    (bytes.map Char.ofUInt8).map Char.toUInt8 = bytes := by
  rw [List.map_map]
  exact List.map_id'' toUInt8_ofUInt8 bytes

theorem map_toUInt8_prefix_iff (h : ∀ c ∈ text, c.toNat < 128) :
    text.map Char.toUInt8 <+: bytes ↔ text <+: bytes.map Char.ofUInt8 := by
  constructor
  · intro hbytes
    have hchars := hbytes.map Char.ofUInt8
    rwa [map_ofUInt8_map_toUInt8 h] at hchars
  · intro hchars
    have hbytes := hchars.map Char.toUInt8
    rwa [map_toUInt8_map_ofUInt8] at hbytes

theorem map_toUInt8_prefix_utf8_iff (h : ∀ c ∈ text, c.toNat < 128) :
    text.map Char.toUInt8 <+: s.flatMap String.utf8EncodeChar ↔ text <+: s := by
  induction text generalizing s with
  | nil => simp
  | cons c text ih =>
    rw [List.forall_mem_cons] at h
    cases s with
    | nil => simp
    | cons d s =>
      rw [List.map_cons, List.flatMap_cons, List.cons_prefix_cons]
      obtain ⟨hd, hbytes⟩ | ⟨hd, b, r, hbytes, hb⟩ := utf8EncodeChar_cases d
      · have hsame : c.toUInt8 = d.toUInt8 ↔ c = d := by
          constructor
          · intro heq
            rw [← ofUInt8_toUInt8 h.1, heq, ofUInt8_toUInt8 hd]
          · rintro rfl
            rfl
        rw [hbytes, List.singleton_append, List.cons_prefix_cons, ih h.2, hsame]
      · have hbyte : c.toUInt8 ≠ b := by
          rintro rfl
          rw [toNat_toUInt8 h.1] at hb
          omega
        have hchar : c ≠ d := by
          rintro rfl
          omega
        rw [hbytes, List.cons_append, List.cons_prefix_cons]
        simp [hbyte, hchar]

end DocSite.Text
