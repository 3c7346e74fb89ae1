import DocSite.Proofs.Json.Writer

namespace DocSite

inductive Value.Plain : Value → Prop
  | null : Plain .null
  | bool (b : Bool) : Plain (.bool b)
  | text (s : String) : Plain (.text s)
  | list {items : List Value} : (∀ v ∈ items, Plain v) → Plain (.list items)
  | record {fields : Fields} :
    (fields.map (·.1)).Nodup → (∀ f ∈ fields, Plain f.2) → Plain (.record fields)

attribute [simp] Value.Plain.null Value.Plain.bool Value.Plain.text

namespace Json

theorem ofValues_eq_map (items : List Value) : ofValues items = items.map ofValue := by
  induction items with
  | nil => rw [ofValues, List.map_nil]
  | cons v r ih => rw [ofValues, ih, List.map_cons]

theorem ofEntries_map (fields : Fields) :
    ofEntries (fields.map fun f => (.text f.1, f.2)) = fields.map fun f => (f.1, ofValue f.2) := by
  induction fields with
  | nil => rw [List.map_nil, List.map_nil, ofEntries]
  | cons f r ih => rw [List.map_cons, List.map_cons, ofEntries, ih, keyText]

theorem ofValue_record (fields : Fields) :
    ofValue (.record fields) = .object (fields.map fun f => (f.1, ofValue f.2)) := by
  rw [Value.record, ofValue, ofEntries_map]

theorem numberFree_ofValue {v : Value} (h : v.Plain) : NumberFree (ofValue v) := by
  induction h with
  | null => exact .null
  | bool b => exact .bool b
  | text s => exact .text s
  | list _ ih =>
    rw [ofValue, ofValues_eq_map]
    apply NumberFree.array
    intro j hj
    obtain ⟨v, hv, rfl⟩ := List.mem_map.mp hj
    exact ih v hv
  | record _ _ ih =>
    rw [ofValue_record]
    apply NumberFree.object
    intro f hf
    obtain ⟨g, hg, rfl⟩ := List.mem_map.mp hf
    exact ih g hg

theorem toValues?_map {items : List Value} (h : ∀ v ∈ items, toValue? (ofValue v) = some v) :
    toValues? (items.map ofValue) = some items := by
  induction items with
  | nil => rw [List.map_nil, toValues?]
  | cons v r ih =>
    rw [List.forall_mem_cons] at h
    rw [List.map_cons, toValues?, h.1, ih h.2]
    rfl

theorem toFields?_map {fields : Fields} (hk : (fields.map (·.1)).Nodup)
    (h : ∀ f ∈ fields, toValue? (ofValue f.2) = some f.2) :
    toFields? (fields.map fun f => (f.1, ofValue f.2)) = some fields := by
  induction fields with
  | nil => rw [List.map_nil, toFields?]
  | cons f r ih =>
    rw [List.map_cons, List.nodup_cons] at hk
    rw [List.forall_mem_cons] at h
    have hfirst : r.any (·.1 == f.1) = false := by
      rw [List.any_eq_false]
      intro g hg heq
      exact hk.1 (List.mem_map.mpr ⟨g, hg, by simpa using heq⟩)
    rw [List.map_cons, toFields?, h.1, ih hk.2 h.2]
    simp [hfirst]

theorem toValue?_ofValue {v : Value} (h : v.Plain) : toValue? (ofValue v) = some v := by
  induction h with
  | null => rfl
  | bool b => rfl
  | text s => rfl
  | list _ ih => rw [ofValue, ofValues_eq_map, toValue?, toValues?_map ih, Option.map_some]
  | record hk _ ih => rw [ofValue_record, toValue?, toFields?_map hk ih, Option.map_some]

theorem toDeclaration?_ofFields {fields : Fields} (h : (Value.record fields).Plain) :
    toDeclaration? (ofFields fields) = some fields := by
  have hrecord := toValue?_ofValue h
  rw [ofValue_record, toValue?] at hrecord
  obtain ⟨back, hback, heq⟩ := Option.map_eq_some_iff.mp hrecord
  have hfields := congrArg Value.fields? heq
  rw [Value.fields?_record, Value.fields?_record, Option.some.injEq] at hfields
  rw [ofFields, ofValue_record, toDeclaration?, hback, hfields]

theorem fields_eq_of_line_eq {fields fields' : Fields} (h : (Value.record fields).Plain)
    (h' : (Value.record fields').Plain) (hline : line (ofFields fields) = line (ofFields fields')) :
    fields = fields' := by
  have hdoc := line_inj (numberFree_ofValue h) (numberFree_ofValue h') hline
  have hback := congrArg toDeclaration? hdoc
  exact Option.some.inj
    ((toDeclaration?_ofFields h).symm.trans (hback.trans (toDeclaration?_ofFields h')))

end Json

end DocSite
