import DocSite.Value
import Mathlib.Data.List.Basic

namespace DocSite

@[elab_as_elim, induction_eliminator]
theorem Value.ind {motive : Value → Prop} (scalar : ∀ s, motive (.scalar s))
    (sequence : ∀ kind items, (∀ v ∈ items, motive v) → motive (.sequence kind items))
    (mapping : ∀ kind entries, (∀ e ∈ entries, motive e.2) → motive (.mapping kind entries)) :
    ∀ v, motive v
  | .scalar s => scalar s
  | .sequence kind items =>
    sequence kind items fun v _ => Value.ind scalar sequence mapping v
  | .mapping kind entries =>
    mapping kind entries fun e _ => Value.ind scalar sequence mapping e.2
decreasing_by
  all_goals simp_wf
  · have := List.sizeOf_lt_of_mem (by assumption : v ∈ items)
    omega
  · have := List.sizeOf_lt_of_mem (by assumption : e ∈ entries)
    have : sizeOf e = 1 + sizeOf e.1 + sizeOf e.2 := by cases e; rfl
    omega

namespace Value

theorem text?_eq_some_iff {v : Value} {s : String} : v.text? = some s ↔ v = .text s := by
  unfold text?
  split <;> simp_all

theorem bind_text?_eq_some_iff {v : Option Value} {s : String} :
    v.bind text? = some s ↔ v = some (.text s) := by
  simp [Option.bind_eq_some_iff, text?_eq_some_iff]

theorem bind_text?_eq_none_iff {v : Option Value} :
    v.bind text? = none ↔ ∀ s, v ≠ some (.text s) := by
  simp only [Option.eq_none_iff_forall_ne_some, ne_eq, bind_text?_eq_some_iff]

theorem bool?_eq_some_iff {v : Value} {b : Bool} : v.bool? = some b ↔ v = .bool b := by
  cases v with
  | scalar s => cases s <;> simp [bool?]
  | _ => simp [bool?]

theorem isNull_iff {v : Value} : v.isNull ↔ v = .null := by
  unfold isNull
  split <;> simp_all

@[simp] theorem isNull_null : null.isNull = true := rfl

@[simp] theorem isNull_text (s : String) : (text s).isNull = false := rfl

@[simp] theorem isNull_bool (b : Bool) : (bool b).isNull = false := rfl

@[simp] theorem isNull_sequence (kind : SequenceKind) (items : List Value) :
    (sequence kind items).isNull = false := rfl

@[simp] theorem isNull_record (fields : Fields) : (record fields).isNull = false := rfl

theorem items?_eq_some_iff {v : Value} {items : List Value} :
    v.items? = some items ↔ ∃ kind, v = .sequence kind items := by
  cases v <;> simp [items?]

theorem textKeyed?_eq_some_iff {entries : List (Scalar × Value)} {fields : Fields} :
    textKeyed? entries = some fields ↔ entries = fields.map fun f => (.text f.1, f.2) := by
  induction entries generalizing fields with
  | nil => cases fields <;> simp [textKeyed?]
  | cons e r ih =>
    obtain ⟨key, v⟩ := e
    cases key with
    | text k =>
      cases fields with
      | nil => simp [textKeyed?]
      | cons f t =>
        simp only [textKeyed?, Option.map_eq_some_iff, List.cons.injEq, List.map_cons, Prod.ext_iff,
          Scalar.text.injEq]
        constructor
        · rintro ⟨a, ha, ⟨hk, hv⟩, rfl⟩
          exact ⟨⟨hk, hv⟩, ih.mp ha⟩
        · rintro ⟨⟨hk, hv⟩, hr⟩
          exact ⟨t, ih.mpr hr, ⟨hk, hv⟩, rfl⟩
    | _ => cases fields <;> simp [textKeyed?]

theorem fields?_eq_some_iff {v : Value} {fields : Fields} :
    v.fields? = some fields ↔
      ∃ kind, v = .mapping kind (fields.map fun f => (.text f.1, f.2)) := by
  cases v <;> simp [fields?, textKeyed?_eq_some_iff]

theorem fields?_of_items? {v : Value} {items : List Value} (h : v.items? = some items) :
    v.fields? = none := by
  obtain ⟨kind, rfl⟩ := items?_eq_some_iff.mp h
  rfl

end Value

namespace Fields

theorem mem_of_get? {fields : Fields} {key : String} {v : Value} (h : fields.get? key = some v) :
    (key, v) ∈ fields := by
  rw [get?, List.lookup_eq_some_iff] at h
  obtain ⟨l, r, rfl, _⟩ := h
  simp

theorem given?_eq_some_iff {fields : Fields} {key : String} {v : Value} :
    fields.given? key = some v ↔ fields.get? key = some v ∧ v ≠ .null := by
  simp [given?, Option.filter_eq_some_iff, ← Value.isNull_iff]

theorem given?_eq_none_iff {fields : Fields} {key : String} :
    fields.given? key = none ↔ fields.get? key = none ∨ fields.get? key = some .null := by
  rw [given?, Option.filter_eq_none_iff]
  cases h : fields.get? key with
  | none => simp
  | some v => simp [← Value.isNull_iff]

theorem given?_cases (fields : Fields) (key : String) :
    fields.given? key = fields.get? key ∨
      fields.given? key = none ∧ fields.get? key = some .null := by
  cases h : fields.given? key with
  | some v => exact .inl (given?_eq_some_iff.mp h).1.symm
  | none => exact (given?_eq_none_iff.mp h).imp Eq.symm (And.intro rfl)

theorem get?_isSome_iff {fields : Fields} {key : String} :
    (fields.get? key).isSome ↔ key ∈ fields.map (·.1) := by
  simp [get?]

end Fields

end DocSite
