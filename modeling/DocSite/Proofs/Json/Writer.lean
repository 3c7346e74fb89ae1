import DocSite.Json.Reader
import DocSite.Json.Writer
import Mathlib.Algebra.Group.Nat.Defs
import Mathlib.Data.List.Basic

namespace DocSite.Json

theorem length_hexDigits (width n : Nat) : (Text.hexDigits width n).length = width := by
  induction width generalizing n with
  | zero => rfl
  | succ width ih => simp [Text.hexDigits, ih]

theorem hexValue?_digitChar {d : Nat} (h : d < 16) : Link.hexValue? (Nat.digitChar d) = some d := by
  revert d
  decide

theorem hexDigits_inj {width n n' : Nat} (h : Text.hexDigits width n = Text.hexDigits width n') :
    n % 16 ^ width = n' % 16 ^ width := by
  induction width generalizing n n' with
  | zero => simp [Nat.mod_one]
  | succ width ih =>
    rw [Text.hexDigits, Text.hexDigits] at h
    obtain ⟨hrest, hlast⟩ := List.append_inj' h rfl
    have hdigit : n % 16 = n' % 16 := by
      have hvalue := congrArg Link.hexValue? (List.cons.inj hlast).1
      rwa [hexValue?_digitChar (Nat.mod_lt _ (by decide)),
        hexValue?_digitChar (Nat.mod_lt _ (by decide)), Option.some.injEq] at hvalue
    rw [Nat.pow_succ', Nat.mod_mul, Nat.mod_mul, ih hrest, hdigit]

theorem writeChar_cases (c : Char) :
    (∃ x, x ≠ 'u' ∧ escapedUnit? x = some c.toNat ∧ writeChar c = ['\\', x]) ∨
      (c.toNat < 0x10000 ∧ writeChar c = '\\' :: 'u' :: Text.hexDigits 4 c.toNat) ∨
      (c ≠ '"' ∧ c ≠ '\\' ∧ 0x20 ≤ c.toNat ∧ writeChar c = [c]) := by
  unfold writeChar
  split
  case h_1 => exact .inl ⟨'"', by decide⟩
  case h_2 => exact .inl ⟨'\\', by decide⟩
  case h_3 => exact .inl ⟨'n', by decide⟩
  case h_4 => exact .inl ⟨'r', by decide⟩
  case h_5 => exact .inl ⟨'t', by decide⟩
  case h_6 hquote hslash _ _ _ =>
    split
    case isTrue h => exact .inl ⟨'b', by decide, by rw [h]; rfl, rfl⟩
    case isFalse =>
      split
      case isTrue h => exact .inl ⟨'f', by decide, by rw [h]; rfl, rfl⟩
      case isFalse =>
        split
        case isTrue h =>
          refine .inr (.inl ⟨?_, rfl⟩)
          rcases h with h | rfl | rfl | rfl | h | h <;> first | omega | decide
        case isFalse h => exact .inr (.inr ⟨hquote, hslash, by omega, rfl⟩)

theorem writeChar_append_inj {c c' : Char} {r r' : List Char}
    (h : writeChar c ++ r = writeChar c' ++ r') : c = c' ∧ r = r' := by
  rcases writeChar_cases c with ⟨x, hx, hu, hc⟩ | ⟨hn, hc⟩ | ⟨hq, hb, _, hc⟩ <;>
    rcases writeChar_cases c' with ⟨x', hx', hu', hc'⟩ | ⟨hn', hc'⟩ | ⟨hq', hb', _, hc'⟩ <;>
    rw [hc, hc'] at h <;> simp only [List.cons_append, List.nil_append, List.cons.injEq] at h
  · obtain ⟨-, rfl, rfl⟩ := h
    exact ⟨Char.toNat_inj.mp (Option.some.inj (hu.symm.trans hu')), rfl⟩
  · exact absurd h.2.1 hx
  · exact absurd h.1.symm hb'
  · exact absurd h.2.1.symm hx'
  · obtain ⟨-, -, h⟩ := h
    obtain ⟨hd, rfl⟩ := List.append_inj h (by rw [length_hexDigits, length_hexDigits])
    have hmod := hexDigits_inj hd
    rw [Nat.mod_eq_of_lt (show c.toNat < 16 ^ 4 from hn),
      Nat.mod_eq_of_lt (show c'.toNat < 16 ^ 4 from hn')] at hmod
    exact ⟨Char.toNat_inj.mp hmod, rfl⟩
  · exact absurd h.1.symm hb'
  · exact absurd h.1 hb
  · exact absurd h.1 hb
  · exact h

theorem exists_writeChar_eq_cons (c : Char) : ∃ x t, writeChar c = x :: t ∧ x ≠ '"' := by
  rcases writeChar_cases c with ⟨x, _, _, hc⟩ | ⟨_, hc⟩ | ⟨hq, _, _, hc⟩
  · exact ⟨_, _, hc, by decide⟩
  · exact ⟨_, _, hc, by decide⟩
  · exact ⟨_, _, hc, hq⟩

theorem quote_cons_ne_writeChar_append (c : Char) (a b : List Char) :
    '"' :: a ≠ writeChar c ++ b := by
  obtain ⟨x, t, hc, hx⟩ := exists_writeChar_eq_cons c
  intro h
  rw [hc] at h
  exact hx (List.cons.inj h).1.symm

theorem flatMap_writeChar_inj {s s' r r' : List Char}
    (h : s.flatMap writeChar ++ '"' :: r = s'.flatMap writeChar ++ '"' :: r') :
    s = s' ∧ r = r' := by
  induction s generalizing s' with
  | nil =>
    cases s' with
    | nil => exact ⟨rfl, (List.cons.inj h).2⟩
    | cons c t => exact absurd (by simpa using h) (quote_cons_ne_writeChar_append c _ _)
  | cons c t ih =>
    cases s' with
    | nil => exact absurd (by simpa using h.symm) (quote_cons_ne_writeChar_append c _ _)
    | cons c' t' =>
      rw [List.flatMap_cons, List.flatMap_cons, List.append_assoc, List.append_assoc] at h
      obtain ⟨rfl, hrest⟩ := writeChar_append_inj h
      obtain ⟨rfl, rfl⟩ := ih hrest
      exact ⟨rfl, rfl⟩

theorem writeText_append_inj {s s' : String} {r r' : List Char}
    (h : writeText s ++ r = writeText s' ++ r') : s = s' ∧ r = r' := by
  simp only [writeText, List.cons_append, List.append_assoc, List.nil_append, List.cons.injEq,
    true_and] at h
  obtain ⟨hs, hr⟩ := flatMap_writeChar_inj h
  exact ⟨String.toList_inj.mp hs, hr⟩

theorem separated_inj {write : α → List Char} {close : Char} (hclose : close ≠ ',')
    {l l' : List α} {r r' : List Char}
    (hw : ∀ a ∈ l, ∀ a' ∈ l', ∀ r r', write a ++ r = write a' ++ r' → a = a' ∧ r = r')
    (h : l.flatMap (',' :: write ·) ++ close :: r = l'.flatMap (',' :: write ·) ++ close :: r') :
    l = l' ∧ r = r' := by
  induction l generalizing l' with
  | nil =>
    cases l' with
    | nil => exact ⟨rfl, (List.cons.inj h).2⟩
    | cons a' t' => exact absurd (List.cons.inj h).1 hclose
  | cons a t ih =>
    cases l' with
    | nil => exact absurd (List.cons.inj h).1.symm hclose
    | cons a' t' =>
      simp only [List.flatMap_cons, List.cons_append, List.append_assoc, List.cons.injEq,
        true_and] at h
      obtain ⟨rfl, hrest⟩ := hw a List.mem_cons_self a' List.mem_cons_self _ _ h
      have hw' := fun b hb b' hb' => hw b (List.mem_cons_of_mem _ hb) b'
        (List.mem_cons_of_mem _ hb')
      obtain ⟨rfl, rfl⟩ := ih hw' hrest
      exact ⟨rfl, rfl⟩

theorem members_inj {write : α → List Char} {members : List α → List Char} {close : Char}
    {l l' : List α} {r r' : List Char} (hclose : close ≠ ',') (hnil : members [] = [])
    (hcons : ∀ a t, ',' :: members (a :: t) = (a :: t).flatMap (',' :: write ·))
    (hopen : ∀ a ∈ l ++ l', ∃ c t, write a = c :: t ∧ c ≠ close)
    (hw : ∀ a ∈ l, ∀ a' ∈ l', ∀ r r', write a ++ r = write a' ++ r' → a = a' ∧ r = r')
    (h : members l ++ close :: r = members l' ++ close :: r') : l = l' ∧ r = r' := by
  have hstart : ∀ a ∈ l ++ l', ∀ t x y, close :: x ≠ members (a :: t) ++ y := by
    intro a ha t x y heq
    obtain ⟨c, rest, hc, hne⟩ := hopen a ha
    have hmembers := hcons a t
    rw [List.flatMap_cons, List.cons_append, hc] at hmembers
    rw [(List.cons.inj hmembers).2] at heq
    exact hne (List.cons.inj heq).1.symm
  cases l with
  | nil =>
    cases l' with
    | nil => exact ⟨rfl, by simpa [hnil] using h⟩
    | cons a' t' => exact absurd (by simpa [hnil] using h) (hstart a' (by simp) _ _ _)
  | cons a t =>
    cases l' with
    | nil => exact absurd (by simpa [hnil] using h.symm) (hstart a (by simp) _ _ _)
    | cons a' t' =>
      -- with a comma put before both, the first member is like the others
      apply separated_inj hclose hw
      rw [← hcons, ← hcons, List.cons_append, List.cons_append, h]

def compactField (f : String × Json) : List Char := writeText f.1 ++ ':' :: writeCompact f.2

theorem cons_compactItems (j : Json) (r : List Json) :
    ',' :: compactItems (j :: r) = (j :: r).flatMap (',' :: writeCompact ·) := by
  induction r generalizing j with
  | nil => simp [compactItems]
  | cons j' r ih =>
    rw [compactItems, ih j', List.flatMap_cons, List.cons_append]
    · rfl
    · simp

theorem cons_compactFields (f : String × Json) (r : List (String × Json)) :
    ',' :: compactFields (f :: r) = (f :: r).flatMap (',' :: compactField ·) := by
  induction r generalizing f with
  | nil => simp [compactFields, compactField]
  | cons f' r ih =>
    rw [compactFields, ih f', List.flatMap_cons, List.cons_append]
    · simp [compactField]
    · simp

inductive NumberFree : Json → Prop
  | null : NumberFree .null
  | bool (b : Bool) : NumberFree (.bool b)
  | text (s : String) : NumberFree (.text s)
  | array {items : List Json} : (∀ j ∈ items, NumberFree j) → NumberFree (.array items)
  | object {fields : List (String × Json)} :
    (∀ f ∈ fields, NumberFree f.2) → NumberFree (.object fields)

theorem NumberFree.exists_eq_cons {j : Json} (h : NumberFree j) :
    ∃ c t, writeCompact j = c :: t ∧ c ≠ ']' := by
  cases h with
  | null => exact ⟨_, _, rfl, by decide⟩
  | bool b => cases b <;> exact ⟨_, _, rfl, by decide⟩
  | text s => exact ⟨_, _, rfl, by decide⟩
  | array => exact ⟨_, _, by rw [writeCompact, List.cons_append], by decide⟩
  | object => exact ⟨_, _, by rw [writeCompact, List.cons_append], by decide⟩

theorem writeCompact_append_inj {j j' : Json} (hj : NumberFree j) (hj' : NumberFree j')
    {r r' : List Char} (h : writeCompact j ++ r = writeCompact j' ++ r') : j = j' ∧ r = r' := by
  -- the first character settles the kind of both documents, so only equal kinds are left
  induction hj generalizing j' r r' with
  | null =>
    cases hj' with
    | null => exact ⟨rfl, by simpa using h⟩
    | bool b => cases b <;> simp [writeCompact] at h
    | _ => simp [writeCompact, writeText] at h
  | bool b =>
    cases hj' with
    | bool b' => cases b <;> cases b' <;> simp_all [writeCompact]
    | _ => cases b <;> simp [writeCompact, writeText] at h
  | text s =>
    cases hj' with
    | text s' =>
      rw [writeCompact, writeCompact] at h
      obtain ⟨rfl, rfl⟩ := writeText_append_inj h
      exact ⟨rfl, rfl⟩
    | bool b => cases b <;> simp [writeCompact, writeText] at h
    | _ => simp [writeCompact, writeText] at h
  | array hitems ih =>
    cases hj' with
    | array hitems' =>
      simp only [writeCompact, List.cons_append, List.append_assoc, List.cons.injEq,
        List.nil_append, true_and] at h
      obtain ⟨rfl, rfl⟩ := members_inj (by decide : ']' ≠ ',') (by rw [compactItems])
        cons_compactItems
        (fun j hj => ((List.mem_append.mp hj).elim (hitems j) (hitems' j)).exists_eq_cons)
        (fun j hj j' hj' _ _ h => ih j hj (hitems' j' hj') h) h
      exact ⟨rfl, rfl⟩
    | bool b => cases b <;> simp [writeCompact] at h
    | _ => simp [writeCompact, writeText] at h
  | @object fields hfields ih =>
    cases hj' with
    | @object fields' hfields' =>
      simp only [writeCompact, List.cons_append, List.append_assoc, List.cons.injEq,
        List.nil_append, true_and] at h
      have hfield : ∀ f ∈ fields, ∀ f' ∈ fields', ∀ r r',
          compactField f ++ r = compactField f' ++ r' → f = f' ∧ r = r' := by
        intro f hf f' hf' r r' heq
        rw [compactField, compactField, List.append_assoc, List.append_assoc] at heq
        obtain ⟨hkey, hrest⟩ := writeText_append_inj heq
        obtain ⟨hvalue, rfl⟩ := ih f hf (hfields' f' hf') (List.cons.inj hrest).2
        exact ⟨Prod.ext hkey hvalue, rfl⟩
      obtain ⟨rfl, rfl⟩ := members_inj (by decide : '}' ≠ ',') (by rw [compactFields])
        cons_compactFields (fun f _ => ⟨_, _, rfl, by decide⟩) hfield h
      exact ⟨rfl, rfl⟩
    | bool b => cases b <;> simp [writeCompact] at h
    | _ => simp [writeCompact, writeText] at h

/-- Documents that are written alike are one document. -/
theorem line_inj {j j' : Json} (hj : NumberFree j) (hj' : NumberFree j') (h : line j = line j') :
    j = j' := by
  rw [line, line, String.ofList_inj] at h
  exact (writeCompact_append_inj hj hj' h).1

end DocSite.Json
