import DocSite.Proofs.Schema.Order

namespace DocSite

def Finding.Under (path : String) (f : Finding) : Prop :=
  path.toList <+: f.location.toList

namespace Schema

theorem prefix_fieldPath (path key : String) : path.toList <+: (fieldPath path key).toList := by
  rw [fieldPath]
  split
  case isTrue h => exact h ▸ List.nil_prefix
  case isFalse =>
    rw [String.toList_append, String.toList_append, List.append_assoc]
    exact List.prefix_append _ _

theorem prefix_itemPath (path : String) (i : Nat) : path.toList <+: (itemPath path i).toList := by
  rw [itemPath, String.toList_append, String.toList_append, String.toList_append, List.append_assoc,
    List.append_assoc]
  exact List.prefix_append _ _

end Schema

open Schema

def Review.Under (path : String) (r : Review α) : Prop :=
  ∀ f ∈ r.findings, f.Under path

namespace Review

variable {path : String}

@[simp] theorem under_pure (a : α) : (pure a : Review α).Under path := by
  simp [Under]

@[simp] theorem under_bind_iff {r : Review α} {f : α → Review β} :
    (r >>= f).Under path ↔ r.Under path ∧ (f r.value).Under path := by
  simp [Under, or_imp, forall_and]

@[simp] theorem under_report_iff {f : Finding} : (report f).Under path ↔ f.Under path := by
  simp [Under]

@[simp] theorem under_mismatch (path shape : String) : (mismatch path shape).Under path := by
  simp [mismatch, Finding.Under, Finding.location]

@[simp] theorem under_warn (p message : String) : (warn p message).Under path := by
  simp [Under, warn]

@[simp] theorem under_unknownKeys (p : String) (fields : Fields) (known : List String) :
    (unknownKeys p fields known).Under path := by
  simp [Under]

theorem Under.of_prefix {p : String} {r : Review α} (h : r.Under p)
    (hp : path.toList <+: p.toList) : r.Under path :=
  fun f hf => hp.trans (h f hf)

theorem Under.of_fieldPath {key : String} {r : Review α} (h : r.Under (fieldPath path key)) :
    r.Under path :=
  h.of_prefix (prefix_fieldPath path key)

theorem Under.of_itemPath {i : Nat} {r : Review α} (h : r.Under (itemPath path i)) :
    r.Under path :=
  h.of_prefix (prefix_itemPath path i)

end Review

namespace Schema

open Review

variable (path : String)

theorem label_under (fields : Fields) : (label path fields).Under path := by
  rw [label]
  split
  · exact under_pure _
  · simpa using (under_mismatch (fieldPath path "text") _).of_fieldPath

theorem scalarEntries_under (fields : Fields) (keys : List String) :
    (scalarEntries path fields keys).Under path := by
  induction keys with
  | nil => exact under_pure _
  | cons key r ih =>
    rw [scalarEntries]
    split
    · simpa using ih
    · simpa [ih] using (under_mismatch (fieldPath path key) _).of_fieldPath

theorem textMap_under (v : Value) : (textMap path v).Under path := by
  rw [textMap]
  split
  · simp
  · exact scalarEntries_under path _ _

theorem headTagParts_under (name attributes : Option Value) :
    (headTagParts path name attributes).Under path := by
  rw [headTagParts]
  split
  · simpa using (under_mismatch (fieldPath path "tagName") _).of_fieldPath
  · split
    · exact under_pure _
    · simpa using (textMap_under (fieldPath path "attributes") _).of_fieldPath

theorem headTag_under (v : Value) : (headTag path v).Under path := by
  rw [headTag]
  split <;> simp [headTagParts_under]

theorem entryLink_under (v : Value) : (entryLink path v).Under path := by
  rw [entryLink]
  split
  · exact under_pure _
  · simpa using (under_mismatch (fieldPath path "link") _).of_fieldPath

theorem entryFindings_under {read : String → Value → Review (Option α)} {items : List Value}
    (h : ∀ v ∈ items, ∀ p, (read p v).Under p) :
    ∀ f ∈ entryFindings path read items, f.Under path := by
  intro f hf
  obtain ⟨i, v, hv, hf⟩ := mem_entryFindings.mp hf
  exact (h v (List.mem_of_getElem? hv) (itemPath path i)).of_itemPath f hf

theorem sidebarItem_under (v : Value) : (sidebarItem path v).Under path := by
  rw [sidebarItem]
  split
  · simp
  · simp only [under_bind_iff, under_unknownKeys, label_under, true_and]
    split
    · exact under_pure _
    · split <;> simp

theorem collapsedMark_under (isLink : Bool) (v : Option Value) :
    (collapsedMark path isLink v).Under path := by
  unfold collapsedMark
  split
  · exact under_pure _
  · split
    · simp
    · split <;> simp

theorem groupItems_under (v : Value) : (groupItems path v).Under path := by
  cases hv : v.items? with
  | none => simp [groupItems, hv]
  | some items =>
    cases items with
    | nil => simp [groupItems, hv]
    | cons first others =>
      rw [Review.Under, groupItems_findings hv (List.cons_ne_nil _ _)]
      exact entryFindings_under path fun v _ p => sidebarItem_under p v

theorem sidebarGroup_under (v : Value) : (sidebarGroup path v).Under path := by
  have hmark := fun isLink v =>
    (collapsedMark_under (fieldPath path "collapsed") isLink v).of_fieldPath
  have hitems := fun v => (groupItems_under (fieldPath path "items") v).of_fieldPath
  rw [sidebarGroup]
  split
  · simp
  · simp only [under_bind_iff, under_unknownKeys, label_under, true_and]
    split
    · exact under_pure _
    · split
      · simp [hmark, entryLink_under]
      · simp [hmark, hitems]
      · simp

theorem oneOf_under (known : List String) (v : Option Value) : (oneOf path known v).Under path := by
  rw [oneOf]
  split
  · split <;> simp
  · simp

theorem socialTarget_under (v : Option Value) : (socialTarget path v).Under path := by
  rw [socialTarget]
  split
  · simp
  · split
    · exact under_pure _
    · simp [Finding.Under, Finding.location]

theorem socialLink_under (v : Value) : (socialLink path v).Under path := by
  rw [socialLink]
  split
  · simp
  · simp [(oneOf_under (fieldPath path "icon") _ _).of_fieldPath,
      (socialTarget_under (fieldPath path "link") _).of_fieldPath]

theorem navEntry_mapping_under {kind : MappingKind} {fields : Fields}
    (h : ∀ w, fields.get? "items" = some w → ∀ p, (nav p w).Under p) :
    (navEntry path (.mapping kind (fields.map fun f => (.text f.1, f.2)))).Under path := by
  have hkeyed : Value.textKeyed? (fields.map fun f => (.text f.1, f.2)) = some fields :=
    Value.textKeyed?_eq_some_iff.mpr rfl
  rw [navEntry, hkeyed]
  simp only [under_bind_iff, under_unknownKeys, label_under, true_and]
  split
  · exact under_pure _
  · cases hl : fields.given? "link" with
    | some link =>
      cases hi : fields.given? "items" with
      | some w => simp
      | none => simp [entryLink_under]
    | none =>
      cases hi : fields.given? "items" with
      | none => simp
      | some w =>
        have hget := (Fields.given?_eq_some_iff.mp hi).1
        simp only [Option.isSome_some, navBelow_eq hget, under_bind_iff,
          (h w hget (fieldPath path "items")).of_fieldPath, true_and]
        split
        · exact under_pure _
        · split
          · simpa using (under_mismatch (fieldPath path "items") _).of_fieldPath
          · simp

theorem navEntry_nav_under (v : Value) :
    (∀ path, (navEntry path v).Under path) ∧ ∀ path, (nav path v).Under path := by
  -- an entry looks at the sequence in its field, a sequence at its entries
  induction v with
  | scalar s => exact ⟨fun path => by simp [navEntry], fun path => by simp [nav]⟩
  | sequence kind items ih =>
    refine ⟨fun path => by simp [navEntry], fun path => ?_⟩
    rw [Review.Under, nav_findings]
    exact entryFindings_under path fun v hv => (ih v hv).1
  | mapping kind entries ih =>
    refine ⟨fun path => ?_, fun path => by simp [nav]⟩
    cases hf : Value.textKeyed? entries with
    | none => simp [navEntry, hf]
    | some fields =>
      obtain rfl := Value.textKeyed?_eq_some_iff.mp hf
      refine navEntry_mapping_under path fun w hw => ?_
      exact (ih (.text "items", w) (List.mem_map.mpr ⟨_, Fields.mem_of_get? hw, rfl⟩)).2

end Schema

end DocSite
