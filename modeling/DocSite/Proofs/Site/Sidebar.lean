import DocSite.Proofs.Schema.Declared

namespace DocSite

def SidebarGroup.links (group : SidebarGroup) : List String :=
  (if group.link = "" then [] else [group.link]) ++ group.items.map (·.link)

def sidebarLinks (sidebar : List SidebarGroup) : List String :=
  sidebar.flatMap SidebarGroup.links

def CollisionFree (sidebar : List SidebarGroup) : Prop :=
  ((sidebarLinks sidebar).map Link.normalize).Nodup

instance (sidebar : List SidebarGroup) : Decidable (CollisionFree sidebar) :=
  inferInstanceAs (Decidable (List.Nodup _))

theorem map_fst_targets (group : SidebarGroup) :
    group.targets.map (·.1) = group.links.map Link.normalize := by
  by_cases h : group.link = "" <;> simp [SidebarGroup.targets, SidebarGroup.links, h]

theorem map_fst_sidebarTargets (sidebar : List SidebarGroup) :
    (sidebarTargets sidebar).map (·.1) = (sidebarLinks sidebar).map Link.normalize := by
  simp [sidebarTargets, sidebarLinks, List.map_flatMap, map_fst_targets]

@[simp] theorem mem_firstOccurrences [BEq α] [LawfulBEq α] {a : α} {l : List α} :
    a ∈ firstOccurrences l ↔ a ∈ l := by
  induction l with
  | nil => rfl
  | cons b r ih =>
    by_cases h : a = b
    · simp [firstOccurrences, h]
    · simp [firstOccurrences, h, ih]

theorem length_groupsOf (link : String) (targets : List (String × String)) :
    (groupsOf link targets).length = (targets.map (·.1)).count link := by
  rw [groupsOf, List.length_map, List.count_eq_countP, List.countP_map,
    List.countP_eq_length_filter]
  rfl

theorem duplicateLinks_eq_nil_iff {sidebar : List SidebarGroup} :
    duplicateLinks sidebar = [] ↔ CollisionFree sidebar := by
  rw [CollisionFree, ← map_fst_sidebarTargets, List.nodup_iff_count]
  simp only [duplicateLinks, List.filterMap_eq_nil_iff, mem_firstOccurrences, length_groupsOf,
    ite_eq_right_iff, reduceCtorEq, imp_false, Nat.not_lt]
  constructor
  · intro h link
    by_cases hl : link ∈ (sidebarTargets sidebar).map (·.1)
    · exact h link hl
    · simp [List.count_eq_zero_of_not_mem hl]
  · intro h link _
    exact h link

theorem sidebarFault?_eq_none_iff {sidebar : List SidebarGroup} :
    sidebarFault? sidebar = none ↔ CollisionFree sidebar := by
  rw [← duplicateLinks_eq_nil_iff, sidebarFault?]
  split <;> simp_all

theorem build_eq_ok_iff {declaration : Fields} {r : Report} :
    build declaration = .ok r ↔
      Site.DeclaredBy declaration r.site ∧ CollisionFree (r.site.theme.sidebar.getD []) ∧
        r.warnings = (Schema.site declaration).warnings := by
  rw [← Schema.site_yields, Review.yields_iff, ← sidebarFault?_eq_none_iff, build]
  constructor
  · intro h
    split at h
    case h_1 hnil =>
      rw [List.append_eq_nil_iff, List.map_eq_nil_iff, Option.toList_eq_nil_iff] at hnil
      obtain rfl := Except.ok.inj h
      exact ⟨⟨hnil.1, rfl⟩, hnil.2, rfl⟩
    case h_2 => cases h
  · rintro ⟨⟨hf, hs⟩, hfree, hw⟩
    simp [hf, hs, hfree, ← hw]

end DocSite
