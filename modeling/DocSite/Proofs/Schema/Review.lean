import DocSite.Proofs.Text.Trim
import DocSite.Proofs.TextMap
import DocSite.Proofs.Value
import DocSite.Schema.Review
import Mathlib.Data.List.Forall2
import Mathlib.Data.Option.Basic

namespace DocSite

/-- The review found nothing wrong and gave this value. -/
structure Review.Yields (r : Review α) (a : α) : Prop where
  findings : r.findings = []
  value : r.value = a

namespace Review

theorem yields_iff {r : Review α} {a : α} : r.Yields a ↔ r.findings = [] ∧ r.value = a :=
  ⟨fun h => ⟨h.findings, h.value⟩, fun h => ⟨h.1, h.2⟩⟩

@[simp] theorem yields_pure {a b : α} : (pure a : Review α).Yields b ↔ b = a := by
  simp [yields_iff, eq_comm]

@[simp] theorem yields_bind {r : Review α} {f : α → Review β} {b : β} :
    (r >>= f).Yields b ↔ ∃ a, r.Yields a ∧ (f a).Yields b := by
  simp [yields_iff, and_assoc]

@[simp] theorem yields_report {f : Finding} {u : Unit} : (report f).Yields u ↔ False := by
  simp [yields_iff, report]

@[simp] theorem yields_mismatch {path shape : String} {u : Unit} :
    (mismatch path shape).Yields u ↔ False :=
  yields_report

@[simp] theorem yields_warn {path message : String} {u : Unit} :
    (warn path message).Yields u ↔ True := by
  simp [yields_iff, warn]

end Review

theorem exists_forall₂_iff {R : α → β → Prop} {l : List α} :
    (∃ l', List.Forall₂ R l l') ↔ ∀ a ∈ l, ∃ b, R a b := by
  induction l with
  | nil => simp
  | cons a r ih =>
    simp only [List.forall₂_cons_left_iff, List.forall_mem_cons, ← ih]
    constructor
    · rintro ⟨_, b, t, hb, ht, rfl⟩
      exact ⟨⟨b, hb⟩, t, ht⟩
    · rintro ⟨⟨b, hb⟩, t, ht⟩
      exact ⟨_, b, t, hb, ht, rfl⟩

theorem exists_of_mem_forall₂ {R : α → β → Prop} {l : List α} {l' : List β}
    (h : List.Forall₂ R l l') {b : β} (hb : b ∈ l') : ∃ a ∈ l, R a b := by
  induction h with
  | nil => simp at hb
  | cons hab _ ih =>
    rcases List.mem_cons.mp hb with rfl | hb
    · exact ⟨_, List.mem_cons_self, hab⟩
    · obtain ⟨a, ha, hr⟩ := ih hb
      exact ⟨a, List.mem_cons_of_mem _ ha, hr⟩

@[simp] theorem rel_none_iff {R : α → β → Prop} {o : Option β} :
    Option.Rel R none o ↔ o = none := by
  cases o <;> simp

@[simp] theorem rel_some_iff {R : α → β → Prop} {a : α} {o : Option β} :
    Option.Rel R (some a) o ↔ ∃ b, o = some b ∧ R a b := by
  cases o <;> simp

theorem rel_refl {R : α → α → Prop} (h : ∀ a, R a a) (o : Option α) : Option.Rel R o o := by
  cases o with
  | none => exact .none
  | some a => exact .some (h a)

theorem rel_cases {R : α → β → Prop} {x : Option α} {y : Option β} (h : Option.Rel R x y) :
    x = none ∧ y = none ∨ ∃ a b, x = some a ∧ y = some b ∧ R a b := by
  cases h with
  | none => exact .inl ⟨rfl, rfl⟩
  | some h => exact .inr ⟨_, _, rfl, rfl, h⟩

def Fields.HasText (fields : Fields) (key s : String) : Prop :=
  fields.get? key = some (.text s) ∧ ¬Text.isBlankText s

def Value.ListOf (R : Value → α → Prop) (v : Value) (l : List α) : Prop :=
  ∃ items, v.items? = some items ∧ List.Forall₂ R items l

def Value.TextsOf (v : Value) (m : TextMap) : Prop :=
  ∃ fields : Fields, v.fields? = some fields ∧
    ∀ key, (fields.get? key).map Value.scalarText? = (m.get? key).map some

namespace Schema

open Review

/-- A reader that, where it finds nothing wrong, gives what stands in a relation to the value. -/
def Reads (read : String → Value → Review (Option α)) (R : Value → α → Prop) : Prop :=
  ∀ path v o, (read path v).Yields o ↔ ∃ a, o = some a ∧ R v a

@[simp] theorem yields_unknownKeys {path : String} {fields : Fields} {known : List String}
    {u : Unit} : (unknownKeys path fields known).Yields u ↔ True := by
  simp [yields_iff, unknownKeys]

theorem nonBlank?_eq_some_iff {v : Option Value} {s : String} :
    nonBlank? v = some s ↔ v = some (.text s) ∧ ¬Text.isBlankText s := by
  rw [nonBlank?, ← Text.trim_eq_empty_iff]
  cases h : v.bind Value.text? with
  | none => simp [Value.bind_text?_eq_none_iff.mp h]
  | some t =>
    obtain rfl := Value.bind_text?_eq_some_iff.mp h
    by_cases ht : Text.trim t = ""
    · simp only [ht, if_true, reduceCtorEq, Option.some.injEq, Value.scalar.injEq,
        Scalar.text.injEq, false_iff, not_and, not_not]
      rintro rfl
      exact ht
    · simp only [ht, if_false, Option.some.injEq, Value.scalar.injEq, Scalar.text.injEq]
      constructor
      · rintro rfl
        exact ⟨rfl, ht⟩
      · exact fun h => h.1

theorem requiredText_yields {fields : Fields} {key s : String} :
    (requiredText fields key).Yields s ↔ ∃ raw, fields.HasText key raw ∧ s = Text.trim raw := by
  rw [requiredText]
  cases h : fields.given? key with
  | none =>
    have hraw : ∀ raw, ¬fields.HasText key raw := by
      rintro raw ⟨hr, _⟩
      rcases Fields.given?_eq_none_iff.mp h with h | h <;> simp [h] at hr
    simp [hraw]
  | some v =>
    have hget := (Fields.given?_eq_some_iff.mp h).1
    cases ht : v.text? with
    | none =>
      have hraw : ∀ raw, ¬fields.HasText key raw := by
        rintro raw ⟨hr, _⟩
        rw [hget, Option.some.injEq] at hr
        simp [hr, Value.text?] at ht
      simp [ht, hraw]
    | some t =>
      rw [Value.text?_eq_some_iff] at ht
      subst ht
      by_cases hb : Text.trim t = ""
      · simp [Value.text?, hb, Fields.HasText, hget, ← Text.trim_eq_empty_iff]
      · simp [Value.text?, hb, Fields.HasText, hget, ← Text.trim_eq_empty_iff]

theorem optionalText_yields {path : String} {fields : Fields} {key : String} {o : Option String} :
    (optionalText path fields key).Yields o ↔
      ∃ p : Option String, fields.given? key = p.map .text ∧ o = p.map Text.trim := by
  rw [optionalText]
  cases h : fields.given? key with
  | none =>
    constructor
    · intro ho
      exact ⟨none, rfl, by simpa using ho⟩
    · rintro ⟨p, hp, rfl⟩
      obtain rfl : p = none := by simpa using hp.symm
      simp
  | some v =>
    cases ht : v.text? with
    | none =>
      have hp : ∀ p : Option String, some v ≠ p.map .text := by
        intro p hp
        obtain ⟨s, _, rfl⟩ := Option.map_eq_some_iff.mp hp.symm
        simp [Value.text?] at ht
      simp [ht, hp]
    | some s =>
      rw [Value.text?_eq_some_iff] at ht
      subst ht
      constructor
      · intro ho
        exact ⟨some s, rfl, by simpa [Value.text?] using ho⟩
      · rintro ⟨p, hp, rfl⟩
        obtain ⟨t, rfl, hst⟩ := Option.map_eq_some_iff.mp hp.symm
        obtain rfl : t = s := by simpa using hst
        simp [Value.text?]

theorem label_yields {path : String} {fields : Fields} {o : Option String} :
    (label path fields).Yields o ↔
      ∃ raw, fields.HasText "text" raw ∧ o = some (Text.trim raw) := by
  rw [label]
  cases h : nonBlank? (fields.get? "text") with
  | none =>
    have hraw : ∀ raw, ¬fields.HasText "text" raw := by
      intro raw hr
      rw [nonBlank?_eq_some_iff.mpr hr] at h
      cases h
    simp [hraw]
  | some s =>
    have hs := nonBlank?_eq_some_iff.mp h
    simp [Fields.HasText, hs]

theorem oneOf_yields {path : String} {known : List String} {v : Option Value} {o : Option String} :
    (oneOf path known v).Yields o ↔ ∃ s, v = some (.text s) ∧ s ∈ known ∧ o = some s := by
  rw [oneOf]
  cases h : v.bind Value.text? with
  | none => simp [Value.bind_text?_eq_none_iff.mp h]
  | some s =>
    obtain rfl := Value.bind_text?_eq_some_iff.mp h
    by_cases hk : s ∈ known <;> simp [hk]

theorem collectFrom_yields {read : String → Value → Review (Option α)} {R : Value → α → Prop}
    (h : Reads read R) {path : String} {i : Nat} {items : List Value} {l : List α} :
    (collectFrom path read i items).Yields l ↔ List.Forall₂ R items l := by
  induction items generalizing i l with
  | nil => simp [collectFrom]
  | cons v r ih =>
    simp only [collectFrom, yields_bind, h _ v, ih, yields_pure, List.forall₂_cons_left_iff]
    constructor
    · rintro ⟨o, ⟨a, rfl, ha⟩, rest, hrest, rfl⟩
      exact ⟨a, rest, ha, hrest, rfl⟩
    · rintro ⟨a, rest, ha, hrest, rfl⟩
      exact ⟨some a, ⟨a, rfl, ha⟩, rest, hrest, rfl⟩

theorem sequenceOf_reads {read : String → Value → Review (Option α)} {R : Value → α → Prop}
    (h : Reads read R) : Reads (fun path v => sequenceOf path read v) (Value.ListOf R) := by
  intro path v o
  simp only [sequenceOf, Value.ListOf]
  cases v.items? with
  | none => simp
  | some items => simp [collectFrom_yields h, and_comm]

theorem optionalField_yields {read : String → Value → Review (Option α)} {R : Value → α → Prop}
    (h : Reads read R) {path : String} {fields : Fields} {key : String} {o : Option α} :
    (optionalField path fields key read).Yields o ↔ Option.Rel R (fields.given? key) o := by
  rw [optionalField]
  cases fields.given? key with
  | none => simp
  | some v => simp [h _ v]

def ScalarEntry (fields : Fields) (key : String) (e : String × String) : Prop :=
  e.1 = key ∧ (fields.get? key).bind Value.scalarText? = some e.2

theorem scalarEntries_yields {path : String} {fields : Fields} {keys : List String}
    {l : List (String × String)} :
    (scalarEntries path fields keys).Yields l ↔ List.Forall₂ (ScalarEntry fields) keys l := by
  induction keys generalizing l with
  | nil => simp [scalarEntries]
  | cons key r ih =>
    rw [scalarEntries, List.forall₂_cons_left_iff]
    cases h : (fields.get? key).bind Value.scalarText? with
    | none => simp [ScalarEntry, h]
    | some s =>
      simp only [yields_bind, ih, yields_pure, ScalarEntry, h, Option.some.injEq]
      constructor
      · rintro ⟨rest, hrest, rfl⟩
        exact ⟨(key, s), rest, ⟨rfl, rfl⟩, hrest, rfl⟩
      · rintro ⟨⟨_, _⟩, rest, ⟨rfl, rfl⟩, hrest, rfl⟩
        exact ⟨rest, hrest, rfl⟩

theorem mem_sortedKeys {fields : Fields} {key : String} :
    key ∈ fields.sortedKeys ↔ (fields.get? key).isSome := by
  rw [Fields.sortedKeys, Text.mem_sortTexts, Fields.get?_isSome_iff]

theorem get?_ofList_scalarEntries {fields : Fields} {l : List (String × String)}
    (h : List.Forall₂ (ScalarEntry fields) fields.sortedKeys l) (key : String) :
    (fields.get? key).map Value.scalarText? = ((TextMap.ofList l).get? key).map some := by
  have hkeys : l.map (·.1) = fields.sortedKeys := by
    rw [← List.forall₂_eq_eq_eq, List.forall₂_map_left_iff]
    exact (h.imp fun _ _ he => he.1).flip
  have hentries : ∀ e ∈ l, (fields.get? e.1).bind Value.scalarText? = some e.2 := by
    intro e he
    obtain ⟨k, _, rfl, hk⟩ := exists_of_mem_forall₂ h he
    exact hk
  rw [TextMap.get?_ofList (f := fun k => (fields.get? k).bind Value.scalarText?) hentries]
  simp only [hkeys, mem_sortedKeys]
  cases hget : fields.get? key with
  | none => simp
  | some v =>
    have hmem : key ∈ l.map (·.1) := hkeys ▸ mem_sortedKeys.mpr (by simp [hget])
    obtain ⟨e, he, rfl⟩ := List.mem_map.mp hmem
    have hv : v.scalarText? = some e.2 := by simpa [hget] using hentries e he
    simp [hv]

theorem exists_scalarEntries {fields : Fields}
    (h : ∀ key v, fields.get? key = some v → ∃ s, v.scalarText? = some s) :
    ∃ l, List.Forall₂ (ScalarEntry fields) fields.sortedKeys l := by
  apply exists_forall₂_iff.mpr
  intro key hkey
  obtain ⟨v, hv⟩ := Option.isSome_iff_exists.mp (mem_sortedKeys.mp hkey)
  obtain ⟨s, hs⟩ := h key v hv
  exact ⟨(key, s), rfl, by rw [hv, Option.bind_some, hs]⟩

theorem exists_scalarText? {fields : Fields} {m : TextMap}
    (h : ∀ key, (fields.get? key).map Value.scalarText? = (m.get? key).map some) (key : String)
    (v : Value) (hv : fields.get? key = some v) : ∃ s, v.scalarText? = some s := by
  have hkey := h key
  rw [hv, Option.map_some] at hkey
  obtain ⟨s, _, hs⟩ := Option.map_eq_some_iff.mp hkey.symm
  exact ⟨s, hs.symm⟩

theorem textMap_reads : Reads textMap Value.TextsOf := by
  intro path v o
  rw [textMap]
  cases hv : v.fields? with
  | none => simp [Value.TextsOf, hv]
  | some fields =>
    simp only [yields_iff, Value.TextsOf, hv, Option.some.injEq, exists_eq_left']
    constructor
    · rintro ⟨hf, rfl⟩
      exact ⟨_, by simp [hf], get?_ofList_scalarEntries (scalarEntries_yields.mp ⟨hf, rfl⟩)⟩
    · rintro ⟨m, rfl, hm⟩
      obtain ⟨l, hl⟩ := exists_scalarEntries (exists_scalarText? hm)
      have hy : (scalarEntries path fields fields.sortedKeys).Yields l :=
        scalarEntries_yields.mpr hl
      refine ⟨hy.findings, ?_⟩
      rw [hy.findings, hy.value, List.isEmpty_nil, if_pos rfl, Option.some.injEq]
      ext1 key
      have hkey := (get?_ofList_scalarEntries hl key).symm.trans (hm key)
      exact Option.map_injective (fun _ _ => Option.some.inj) hkey

end Schema

end DocSite
