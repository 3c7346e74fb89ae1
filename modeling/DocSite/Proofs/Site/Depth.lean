import DocSite.Proofs.Json.Reader
import DocSite.Proofs.Site.Declaration
import DocSite.Proofs.Toml.Reader

namespace DocSite

mutual

def NavItem.levels : NavItem → Nat
  | ⟨_, _, items⟩ => NavItem.levelsOf items + 1

def NavItem.levelsOf : List NavItem → Nat
  | [] => 0
  | item :: r => max item.levels (NavItem.levelsOf r)

end

def Site.menuLevels (site : Site) : Nat := NavItem.levelsOf (site.theme.nav.getD [])

theorem NavItem.levels_le_levelsOf {item : NavItem} {l : List NavItem} (h : item ∈ l) :
    item.levels ≤ NavItem.levelsOf l := by
  induction l with
  | nil => simp at h
  | cons a r ih =>
    rw [NavItem.levelsOf]
    rcases List.mem_cons.mp h with rfl | h
    · exact Nat.le_max_left _ _
    · exact Nat.le_trans (ih h) (Nat.le_max_right _ _)

theorem NavItem.one_le_levels (item : NavItem) : 1 ≤ item.levels := by
  cases item
  exact Nat.le_add_left 1 _

theorem NavItem.levels_below {text link : String} {items : List NavItem} {k : Nat}
    (h : NavItem.levels ⟨text, link, items⟩ ≤ k + 1) {item : NavItem} (hitem : item ∈ items) :
    item.levels ≤ k ∧ k ≠ 0 := by
  rw [NavItem.levels] at h
  have hle := NavItem.levels_le_levelsOf hitem
  have hone := item.one_le_levels
  omega

section Tabular

variable {n : Nat}

theorem Value.Plain.nodup_keys {fields : Fields} (h : (Value.record fields).Plain) :
    (fields.map (·.1)).Nodup := by
  generalize hv : Value.record fields = v at h
  cases h with
  | record hkeys _ => rwa [Value.record_injective hv]
  | null => cases hv
  | bool => cases hv
  | text => cases hv
  | list => cases hv

theorem Value.Plain.tabular {fields : Fields} (h : (Value.record fields).Plain)
    (hfields : ∀ f ∈ fields, f.2.isNull = false → f.2.Tabular n) :
    (Value.record fields).Tabular (n + 1) :=
  .record h.nodup_keys hfields

theorem tabular_list {write : α → Value} {l : List α}
    (h : ∀ a ∈ l, ∃ fields, write a = .record fields ∧ (Value.record fields).Tabular n) :
    (Value.list (l.map write)).Tabular (n + 1) := by
  have hitems : ∃ items : List Fields, l.map write = items.map .record ∧
      ∀ fields ∈ items, (Value.record fields).Tabular n := by
    induction l with
    | nil => exact ⟨[], rfl, by simp⟩
    | cons a r ih =>
      rw [List.forall_mem_cons] at h
      obtain ⟨fields, ha, hfields⟩ := h.1
      obtain ⟨items, hr, hitems⟩ := ih h.2
      exact ⟨fields :: items, by rw [List.map_cons, ha, hr, List.map_cons],
        List.forall_mem_cons.mpr ⟨hfields, hitems⟩⟩
  obtain ⟨items, hl, hitems⟩ := hitems
  rw [hl]
  exact .list hitems

theorem tabular_listOrNull {write : α → Value} {l : Option (List α)}
    (h : ∀ m ∈ l, ∀ a ∈ m, ∃ fields, write a = .record fields ∧ (Value.record fields).Tabular n)
    (hnull : (listOrNull write l).isNull = false) : (listOrNull write l).Tabular (n + 1) := by
  cases l with
  | none => cases hnull
  | some l => exact tabular_list (h l rfl)

theorem tabular_unlessEmpty (key s : String) : ∀ f ∈ unlessEmpty key s, f.2.Tabular n := by
  by_cases h : s = ""
  · simp [unlessEmpty, h]
  · simp [unlessEmpty, h, Value.Tabular.text]

theorem tabular_whenSome (key : String) {v : Option Value} (h : ∀ w ∈ v, w.Tabular n) :
    ∀ f ∈ whenSome key v, f.2.Tabular n := by
  cases v with
  | none => simp [whenSome]
  | some w => simpa [whenSome] using h w rfl

theorem TextMap.tabular_toValue (m : TextMap) : m.toValue.Tabular (n + 1) := by
  refine m.plain_toValue.tabular fun f hf _ => ?_
  obtain ⟨e, _, rfl⟩ := List.mem_map.mp hf
  exact .text n e.2

theorem HeadTag.tabular_toValue (tag : HeadTag) : tag.toValue.Tabular (n + 2) := by
  refine tag.plain_toValue.tabular ?_
  simp only [List.forall_mem_cons, List.not_mem_nil, false_imp_iff, implies_true, and_true]
  refine ⟨fun _ => .text _ _, fun hnull => ?_⟩
  cases hattributes : tag.attributes with
  | none => simp [hattributes] at hnull
  | some m => exact m.tabular_toValue

theorem NavItem.exists_toValue_eq (item : NavItem) : ∃ fields, item.toValue = .record fields := by
  cases item
  exact ⟨_, NavItem.toValue_mk _ _ _⟩

theorem NavItem.tabular_toValue {item : NavItem} {k : Nat} (h : item.levels ≤ k + 1) :
    item.toValue.Tabular (2 * k + 1) := by
  induction item generalizing k with
  | mk text link items ih =>
    have hplain := NavItem.plain_toValue ⟨text, link, items⟩
    rw [NavItem.toValue_mk] at hplain ⊢
    refine hplain.tabular ?_
    simp only [List.forall_mem_append, List.forall_mem_cons]
    refine ⟨⟨fun _ => .text _ _, fun f hf _ => tabular_unlessEmpty "link" link f hf⟩, ?_⟩
    cases items with
    | nil => simp
    | cons a r =>
      obtain ⟨_, hk⟩ := NavItem.levels_below h List.mem_cons_self
      obtain ⟨k, rfl⟩ := Nat.exists_eq_succ_of_ne_zero hk
      have hlist : (Value.list ((a :: r).map NavItem.toValue)).Tabular (2 * (k + 1)) :=
        tabular_list fun item hitem => by
          obtain ⟨fields, hfields⟩ := item.exists_toValue_eq
          exact ⟨fields, hfields, hfields ▸ ih item hitem (NavItem.levels_below h hitem).1⟩
      simpa using hlist

theorem SidebarItem.tabular_toValue (item : SidebarItem) : item.toValue.Tabular (n + 1) :=
  item.plain_toValue.tabular (by simp [Value.Tabular.text])

theorem SidebarGroup.tabular_toValue (group : SidebarGroup) : group.toValue.Tabular (n + 3) := by
  refine group.plain_toValue.tabular ?_
  simp only [List.forall_mem_append, List.forall_mem_cons]
  refine ⟨⟨⟨fun _ => .text _ _, fun f hf _ => tabular_unlessEmpty "link" _ f hf⟩,
    fun f hf _ => ?_⟩, ?_⟩
  · refine tabular_whenSome "collapsed" (fun w hw => ?_) f hf
    obtain ⟨b, _, rfl⟩ := Option.map_eq_some_iff.mp hw
    exact .bool _ b
  · cases group.items.isEmpty with
    | true => simp
    | false =>
      have hlist : (Value.list (group.items.map SidebarItem.toValue)).Tabular (n + 2) :=
        tabular_list fun item _ => ⟨_, rfl, item.tabular_toValue⟩
      simpa using hlist

theorem SocialLink.tabular_toValue (link : SocialLink) : link.toValue.Tabular (n + 1) :=
  link.plain_toValue.tabular (by simp [Value.Tabular.text])

theorem Search.tabular_toValue (search : Search) : search.toValue.Tabular (n + 2) := by
  refine search.plain_toValue.tabular ?_
  cases search.options.isEmpty with
  | true => simp [Value.Tabular.text]
  | false => simp [Value.Tabular.text, search.options.tabular_toValue]

theorem Footer.tabular_toValue (footer : Footer) : footer.toValue.Tabular (n + 1) := by
  refine footer.plain_toValue.tabular fun f hf _ => ?_
  rcases List.mem_append.mp hf with hf | hf
  · exact tabular_unlessEmpty _ _ f hf
  · exact tabular_unlessEmpty _ _ f hf

theorem LastUpdated.tabular_toValue (stamp : LastUpdated) : stamp.toValue.Tabular (n + 2) := by
  have hstyles : (Value.record [("dateStyle", .text stamp.dateStyle),
      ("timeStyle", .text stamp.timeStyle)]).Tabular (n + 1) :=
    .record (by simp) (by simp [Value.Tabular.text])
  exact stamp.plain_toValue.tabular (by simp [Value.Tabular.text, hstyles])

theorem tabular_map {write : α → Value} (h : ∀ a, (write a).Tabular n) (o : Option α) :
    ∀ w ∈ o.map write, w.Tabular n := by
  intro w hw
  obtain ⟨a, _, rfl⟩ := Option.map_eq_some_iff.mp hw
  exact h a

theorem Theme.tabular_toFields {theme : Theme} {k : Nat}
    (h : NavItem.levelsOf (theme.nav.getD []) ≤ k + 2) :
    (Value.record theme.toFields).Tabular (2 * k + 5) := by
  refine theme.plain_toFields.tabular ?_
  simp only [Theme.toFields, List.forall_mem_append, List.forall_mem_cons, List.not_mem_nil,
    false_imp_iff, implies_true, and_true]
  refine ⟨⟨⟨⟨fun f hf _ => tabular_unlessEmpty _ _ f hf, tabular_listOrNull ?_,
    tabular_listOrNull ?_, tabular_listOrNull ?_⟩, fun f hf _ => ?_⟩, fun f hf _ => ?_⟩,
    fun f hf _ => ?_⟩
  · intro l hl item hitem
    obtain ⟨fields, hfields⟩ := item.exists_toValue_eq
    rw [Option.mem_def.mp hl] at h
    exact ⟨fields, hfields, hfields ▸ NavItem.tabular_toValue (k := k + 1)
      (Nat.le_trans (NavItem.levels_le_levelsOf hitem) h)⟩
  · exact fun _ _ group _ => ⟨_, rfl, group.tabular_toValue⟩
  · exact fun _ _ link _ => ⟨_, rfl, link.tabular_toValue⟩
  · exact tabular_whenSome _ (tabular_map Search.tabular_toValue _) f hf
  · exact tabular_whenSome _ (tabular_map Footer.tabular_toValue _) f hf
  · exact tabular_whenSome _ (tabular_map LastUpdated.tabular_toValue _) f hf

theorem Site.tabular_toFields {site : Site} {k : Nat} (h : site.menuLevels ≤ k + 2) :
    (Value.record site.toFields).Tabular (2 * k + 6) := by
  refine site.plain_toFields.tabular ?_
  simp only [Site.toFields, List.forall_mem_append, List.forall_mem_cons, List.not_mem_nil,
    false_imp_iff, implies_true, and_true]
  refine ⟨⟨⟨fun _ => .text _ _, fun _ => .text _ _⟩, fun f hf _ => tabular_unlessEmpty _ _ f hf⟩,
    tabular_listOrNull ?_, fun _ => Theme.tabular_toFields h⟩
  exact fun _ _ tag _ => ⟨_, rfl, tag.tabular_toValue⟩

end Tabular

theorem Json.fits_of_tabular {n : Nat} {v : Value} (h : v.Tabular n) :
    Json.Fits n (Json.ofValue v) := by
  induction h with
  | text n s => exact .text n s
  | bool n b => exact .bool n b
  | list _ ih =>
    rw [Json.ofValue, Json.ofValues_eq_map, List.map_map]
    exact .array (List.forall_mem_map.mpr ih)
  | @record n fields _ _ ih =>
    rw [Json.ofValue_record]
    refine .object (List.forall_mem_map.mpr fun f hf => ?_)
    cases hnull : f.2.isNull with
    | true =>
      rw [Value.isNull_iff.mp hnull]
      exact .null n
    | false => exact ih f hf hnull

end DocSite
