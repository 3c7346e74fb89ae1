import DocSite.Proofs.Schema.Edited
import DocSite.Proofs.Site.Depth

namespace DocSite

namespace Schema

def IsNamedNull (known : List String) (key : String) (v : Value) : Prop :=
  key ∈ known ∧ v.isNull

instance (known : List String) (key : String) (v : Value) : Decidable (IsNamedNull known key v) :=
  inferInstanceAs (Decidable (key ∈ known ∧ v.isNull))

theorem ignorable_namedNull : Ignorable (fun _ => true) IsNamedNull where
  null hidle _ := Value.isNull_iff.mp hidle.2
  unseen hidle hkey := absurd hidle.1 hkey

/-- The value has no nulls but those in fields that the schema names, so that dropping its nulls is
no more than leaving these fields out. -/
def NullsNamed (role : Role) (v : Value) : Prop :=
  Edited IsNamedNull role v (Toml.dropNulls v)

theorem Role.nodup_keys {role : Role} {known : List String} (h : role.keys? = some known) :
    known.Nodup := by
  cases role <;> cases h <;> decide

namespace NullsNamed

variable {role : Role}

theorem scalar (role : Role) (s : Scalar) : NullsNamed role (.scalar s) := .refl role _

theorem record {known : List String} {fields : Fields} (hknown : role.keys? = some known)
    (hkeys : (fields.map (·.1)).Sublist known)
    (h : ∀ f ∈ fields, NullsNamed (role.field f.1) f.2) : NullsNamed role (.record fields) := by
  have hnodup := hkeys.nodup (Role.nodup_keys hknown)
  have hmem : ∀ f ∈ fields, f.1 ∈ known := fun f hf => hkeys.subset (List.mem_map_of_mem hf)
  rw [NullsNamed, Value.record, Toml.dropNulls]
  refine .mapping hknown ?_
  clear hkeys
  induction fields with
  | nil => exact .nil
  | cons f r ih =>
    rw [List.forall_mem_cons] at h hmem
    rw [List.map_cons, List.nodup_cons] at hnodup
    have hr := ih h.2 hnodup.2 hmem.2
    rw [List.map_cons, Toml.dropNullEntries]
    cases hnull : f.2.isNull with
    | true =>
      rw [if_pos rfl]
      exact .left ⟨hmem.1, hnull⟩ (by simpa using hnodup.1) hr
    | false =>
      rw [if_neg Bool.false_ne_true]
      exact .both h.1 hr

theorem list {write : α → Value} {l : List α}
    (h : ∀ a ∈ l, (write a).isNull = false ∧ NullsNamed role (write a)) :
    NullsNamed (.listOf role) (.list (l.map write)) := by
  rw [NullsNamed, Toml.dropNulls]
  refine .sequence ?_
  induction l with
  | nil => exact .nil
  | cons a r ih =>
    rw [List.forall_mem_cons] at h
    rw [List.map_cons, Toml.dropNullItems, h.1.1, if_neg Bool.false_ne_true]
    exact .cons h.1.2 (ih h.2)

theorem listOrNull {write : α → Value}
    (h : ∀ a, (write a).isNull = false ∧ NullsNamed role (write a)) (l : Option (List α)) :
    NullsNamed (.listOf role) (listOrNull write l) := by
  cases l with
  | none => exact scalar _ _
  | some l => exact list fun a _ => h a

theorem unlessEmpty (role : Role) (key s : String) :
    ∀ f ∈ unlessEmpty key s, NullsNamed (role.field f.1) f.2 := by
  by_cases h : s = ""
  · simp [DocSite.unlessEmpty, h]
  · simp [DocSite.unlessEmpty, h, scalar]

theorem whenSome {write : α → Value} {key : String} (h : ∀ a, NullsNamed (role.field key) (write a))
    (o : Option α) : ∀ f ∈ whenSome key (o.map write), NullsNamed (role.field f.1) f.2 := by
  cases o with
  | none => simp [DocSite.whenSome]
  | some a => simpa [DocSite.whenSome] using h a

end NullsNamed

section Written

open NullsNamed (scalar)

theorem dropNulls_textMap (m : TextMap) : Toml.dropNulls m.toValue = m.toValue := by
  have hkept : Toml.kept (m.entries.map fun e => (e.1, .text e.2)) =
      m.entries.map fun e => (e.1, .text e.2) := by
    rw [Toml.kept, List.filter_eq_self]
    intro f hf
    obtain ⟨e, -, rfl⟩ := List.mem_map.mp hf
    rfl
  rw [TextMap.toValue, Toml.dropNulls_record, hkept, List.map_map]
  rfl

theorem nullsNamed_textMap (m : TextMap) : NullsNamed .free m.toValue := by
  rw [NullsNamed, dropNulls_textMap]
  exact .refl _ _

theorem nullsNamed_headTag (tag : HeadTag) : NullsNamed .headTag tag.toValue := by
  refine .record rfl (.refl _) ?_
  have hattributes : NullsNamed .free ((tag.attributes.map TextMap.toValue).getD .null) := by
    cases tag.attributes with
    | none => exact scalar _ _
    | some m => exact nullsNamed_textMap m
  simpa [Role.field, scalar] using hattributes

theorem nullsNamed_navItem (item : NavItem) : NullsNamed .navEntry item.toValue := by
  induction item with
  | mk text link items ih =>
    rw [NavItem.toValue_mk]
    have hitems : NullsNamed (.listOf .navEntry) (.list (items.map NavItem.toValue)) :=
      .list fun item hitem => by
        obtain ⟨fields, hfields⟩ := item.exists_toValue_eq
        exact ⟨by rw [hfields, Value.isNull_record], ih item hitem⟩
    have hkeys : ((if items.isEmpty then []
        else [("items", Value.list (items.map NavItem.toValue))]).map (·.1)).Sublist ["items"] := by
      cases items.isEmpty <;> simp
    refine .record rfl ?_ ?_
    · rw [List.map_append, List.map_cons]
      exact ((sublist_unlessEmpty _ _).cons_cons _).append hkeys
    · simp only [List.forall_mem_append, List.forall_mem_cons]
      refine ⟨⟨scalar _ _, NullsNamed.unlessEmpty _ _ _⟩, ?_⟩
      cases items.isEmpty with
      | true => simp
      | false => simpa [Role.field] using hitems

theorem nullsNamed_sidebarItem (item : SidebarItem) : NullsNamed .sidebarItem item.toValue :=
  .record rfl (.refl _) (by simp [scalar])

theorem nullsNamed_sidebarGroup (group : SidebarGroup) :
    NullsNamed .sidebarEntry group.toValue := by
  have hitems : NullsNamed (.listOf .sidebarItem)
      (.list (group.items.map SidebarItem.toValue)) :=
    .list fun item _ => ⟨rfl, nullsNamed_sidebarItem item⟩
  have hkeys : ((if group.items.isEmpty then []
      else [("items", Value.list (group.items.map SidebarItem.toValue))]).map (·.1)).Sublist
        ["items"] := by
    cases group.items.isEmpty <;> simp
  refine .record rfl ?_ ?_
  · simp only [List.map_append, List.map_cons]
    exact (((sublist_unlessEmpty _ _).cons_cons _).append (sublist_whenSome _ _)).append hkeys
  · simp only [List.forall_mem_append, List.forall_mem_cons]
    refine ⟨⟨⟨scalar _ _, NullsNamed.unlessEmpty _ _ _⟩,
      NullsNamed.whenSome (fun _ => scalar _ _) _⟩, ?_⟩
    cases group.items.isEmpty with
    | true => simp
    | false => simpa [Role.field] using hitems

theorem nullsNamed_socialLink (link : SocialLink) : NullsNamed .socialLink link.toValue :=
  .record rfl (.refl _) (by simp [scalar])

theorem nullsNamed_search (search : Search) : NullsNamed .search search.toValue := by
  rw [Search.toValue]
  cases search.options.isEmpty with
  | true => exact .record rfl (by simp [searchKeys]) (by simp [scalar])
  | false =>
    exact .record rfl (.refl _) (by simp [scalar, Role.field, nullsNamed_textMap])

theorem nullsNamed_footer (footer : Footer) : NullsNamed .footer footer.toValue := by
  refine .record rfl ?_ ?_
  · rw [List.map_append]
    exact (sublist_unlessEmpty _ _).append (sublist_unlessEmpty _ _)
  · rw [List.forall_mem_append]
    exact ⟨NullsNamed.unlessEmpty _ _ _, NullsNamed.unlessEmpty _ _ _⟩

theorem nullsNamed_lastUpdated (stamp : LastUpdated) : NullsNamed .lastUpdated stamp.toValue := by
  have hstyles : NullsNamed .formatOptions (.record [("dateStyle", .text stamp.dateStyle),
      ("timeStyle", .text stamp.timeStyle)]) :=
    .record rfl (.refl _) (by simp [scalar])
  exact .record rfl (.refl _) (by simp [scalar, Role.field, hstyles])

theorem nullsNamed_theme (theme : Theme) : NullsNamed .theme (.record theme.toFields) := by
  refine .record rfl theme.keys_toFields ?_
  simp only [Theme.toFields, List.forall_mem_append, List.forall_mem_cons, List.not_mem_nil,
    false_imp_iff, implies_true, and_true]
  refine ⟨⟨⟨⟨NullsNamed.unlessEmpty _ _ _, ?_, ?_, ?_⟩, ?_⟩, ?_⟩, ?_⟩
  · refine NullsNamed.listOrNull (fun item => ?_) _
    obtain ⟨fields, hfields⟩ := item.exists_toValue_eq
    exact ⟨by rw [hfields, Value.isNull_record], nullsNamed_navItem item⟩
  · exact NullsNamed.listOrNull (fun group => ⟨rfl, nullsNamed_sidebarGroup group⟩) _
  · exact NullsNamed.listOrNull (fun link => ⟨rfl, nullsNamed_socialLink link⟩) _
  · exact NullsNamed.whenSome nullsNamed_search _
  · exact NullsNamed.whenSome nullsNamed_footer _
  · exact NullsNamed.whenSome nullsNamed_lastUpdated _

theorem nullsNamed_site (site : Site) : NullsNamed .site (.record site.toFields) := by
  refine .record rfl site.keys_toFields ?_
  simp only [Site.toFields, List.forall_mem_append, List.forall_mem_cons, List.not_mem_nil,
    false_imp_iff, implies_true, and_true]
  refine ⟨⟨⟨scalar _ _, scalar _ _⟩, NullsNamed.unlessEmpty _ _ _⟩, ?_, nullsNamed_theme _⟩
  exact NullsNamed.listOrNull (fun tag => ⟨rfl, nullsNamed_headTag tag⟩) _

end Written

end Schema

open Schema in
/-- A null field of the schema counts as absent: with or without it, anywhere in a declaration, the
outcome is the same. So it is for what a configuration is written as, without all of its nulls. -/
theorem build_of_nullFields :
    (∀ a b : Fields, Edited IsNamedNull .site (.record a) (.record b) → build a = build b) ∧
    ∀ site : Site, ∃ fields, Toml.dropNulls (.record site.toFields) = .record fields ∧
      build fields = build site.toFields := by
  have hbuild : ∀ a b : Fields, Edited IsNamedNull .site (.record a) (.record b) →
      build a = build b := fun a b h =>
    (ignorable_namedNull.simulation.site sameTexts_edited h).build_eq
  refine ⟨hbuild, fun site => ?_⟩
  have hdropped := Toml.dropNulls_record site.toFields
  refine ⟨_, hdropped, (hbuild _ _ ?_).symm⟩
  rw [← hdropped]
  exact nullsNamed_site site

open Schema in
theorem build_of_nullFields_menu :
    let site (tag entry : Fields) : Fields :=
      [("title", .text "Docs"), ("description", .text "All"),
      ("head", .list [.record tag]), ("themeConfig", .record [("nav", .list [.record entry])])]
    let items : Value := .list [.record [("text", .text "Start"), ("link", .text "/start")]]
    let a := site [("tagName", .text "base"), ("attributes", .null)]
      [("text", .text "More"), ("link", .null), ("items", items)]
    let b := site [("tagName", .text "base")] [("text", .text "More"), ("items", items)]
    Edited IsNamedNull .site (.record a) (.record b) ∧ build a = build b := by
  intro site items a b
  have htag : Edited IsNamedNull .headTag
      (.record [("tagName", .text "base"), ("attributes", .null)])
      (.record [("tagName", .text "base")]) :=
    .mapping rfl (.both (.refl _ _) (.left (by decide) (by simp) .nil))
  have hentry : Edited IsNamedNull .navEntry
      (.record [("text", .text "More"), ("link", .null), ("items", items)])
      (.record [("text", .text "More"), ("items", items)]) :=
    .mapping rfl (.both (.refl _ _) (.left (by decide) (by simp) (.both (.refl _ _) .nil)))
  have h : Edited IsNamedNull .site (.record a) (.record b) :=
    .mapping rfl (.both (.refl _ _) (.both (.refl _ _) (.both (.sequence (.cons htag .nil))
      (.both (.mapping rfl (.both (.sequence (.cons hentry .nil)) .nil)) .nil))))
  exact ⟨h, build_of_nullFields.1 a b h⟩

end DocSite
