import DocSite.Proofs.Finding
import DocSite.Proofs.Site.Sidebar
import Mathlib.Data.List.Basic

namespace DocSite

section FirstOccurrences

variable [DecidableEq α] {a b : α} {l : List α}

theorem firstOccurrences_concat :
    firstOccurrences (l ++ [a]) =
      if a ∈ l then firstOccurrences l else firstOccurrences l ++ [a] := by
  induction l with
  | nil => simp [firstOccurrences]
  | cons b r ih =>
    rw [List.cons_append, firstOccurrences, ih, firstOccurrences]
    by_cases hr : a ∈ r
    · simp [hr]
    · by_cases hb : a = b
      · subst hb
        simp [hr]
      · simp [hr, hb]

theorem pairwise_firstOccurrences :
    (firstOccurrences l).Pairwise fun a b => l.idxOf a < l.idxOf b := by
  induction l using List.reverseRecOn with
  | nil => exact .nil
  | append_singleton l c ih =>
    have hkept : (firstOccurrences l).Pairwise fun a b =>
        (l ++ [c]).idxOf a < (l ++ [c]).idxOf b := by
      refine ih.imp_of_mem fun ha hb h => ?_
      rw [mem_firstOccurrences] at ha hb
      rwa [List.idxOf_append_of_mem ha, List.idxOf_append_of_mem hb]
    rw [firstOccurrences_concat]
    split
    case isTrue => exact hkept
    case isFalse hc =>
      refine List.pairwise_append.mpr ⟨hkept, List.pairwise_singleton _ _, fun a ha b hb => ?_⟩
      rw [mem_firstOccurrences] at ha
      obtain rfl := List.mem_singleton.mp hb
      rw [List.idxOf_append_of_mem ha, List.idxOf_append_of_notMem hc]
      have := List.idxOf_lt_length_iff.mpr ha
      omega

theorem nodup_firstOccurrences : (firstOccurrences l).Nodup :=
  pairwise_firstOccurrences.imp fun h heq => by simp [heq] at h

end FirstOccurrences

abbrev LinkUses := List (String × List String)

namespace LinkUses

def record (uses : LinkUses) (link group : String) : LinkUses :=
  match uses with
  | [] => [(link, [group])]
  | (l, groups) :: r =>
    if l = link then (l, groups ++ [group]) :: r else (l, groups) :: record r link group

def recordGroup (uses : LinkUses) (group : SidebarGroup) : LinkUses :=
  let uses := if group.link = "" then uses else uses.record (Link.normalize group.link) group.text
  group.items.foldl (fun uses item => uses.record (Link.normalize item.link) group.text) uses

def ofSidebar (sidebar : List SidebarGroup) : LinkUses := sidebar.foldl recordGroup []

def repeated (uses : LinkUses) : List Finding :=
  uses.filterMap fun u => if 1 < u.2.length then some (.duplicateLink u.1 u.2) else none

def met (targets : List (String × String)) : LinkUses :=
  (firstOccurrences (targets.map (·.1))).map fun link => (link, groupsOf link targets)

end LinkUses

theorem groupsOf_concat (link : String) (targets : List (String × String)) (t : String × String) :
    groupsOf link (targets ++ [t]) =
      groupsOf link targets ++ if t.1 = link then [t.2] else [] := by
  by_cases h : t.1 = link <;> simp [groupsOf, h]

namespace LinkUses

theorem record_map {links : List String} (hnodup : links.Nodup) (groups : String → List String)
    (link group : String) :
    record (links.map fun l => (l, groups l)) link group =
      (links.map fun l => (l, groups l ++ if link = l then [group] else [])) ++
        if link ∈ links then [] else [(link, [group])] := by
  induction links with
  | nil => rfl
  | cons l r ih =>
    rw [List.nodup_cons] at hnodup
    by_cases h : l = link
    · subst h
      have hrest : r.map (fun k => (k, groups k ++ if l = k then [group] else [])) =
          r.map fun k => (k, groups k) :=
        List.map_congr_left fun k hk => by
          rw [if_neg fun heq : l = k => hnodup.1 (heq ▸ hk), List.append_nil]
      simp [record, hrest]
    · have hne : link ≠ l := Ne.symm h
      simp [record, h, hne, ih hnodup.2]

theorem record_met (targets : List (String × String)) (t : String × String) :
    (met targets).record t.1 t.2 = met (targets ++ [t]) := by
  rw [met, record_map nodup_firstOccurrences, met, List.map_append, List.map_singleton,
    firstOccurrences_concat]
  simp only [mem_firstOccurrences, groupsOf_concat]
  by_cases h : t.1 ∈ targets.map (·.1)
  · rw [if_pos h, if_pos h, List.append_nil]
  · have hnone : groupsOf t.1 targets = [] := by
      rw [← List.length_eq_zero_iff, length_groupsOf, List.count_eq_zero_of_not_mem h]
    rw [if_neg h, if_neg h, List.map_append]
    simp [hnone]

theorem foldl_record_met (targets more : List (String × String)) :
    more.foldl (fun uses t => uses.record t.1 t.2) (met targets) = met (targets ++ more) := by
  induction more generalizing targets with
  | nil => rw [List.append_nil]; rfl
  | cons t r ih => rw [List.foldl_cons, record_met, ih, List.append_assoc, List.singleton_append]

theorem recordGroup_eq (uses : LinkUses) (group : SidebarGroup) :
    uses.recordGroup group = group.targets.foldl (fun uses t => uses.record t.1 t.2) uses := by
  rw [recordGroup, SidebarGroup.targets, List.foldl_append, List.foldl_map]
  split <;> rfl

theorem foldl_recordGroup (uses : LinkUses) (sidebar : List SidebarGroup) :
    sidebar.foldl recordGroup uses =
      (sidebarTargets sidebar).foldl (fun uses t => uses.record t.1 t.2) uses := by
  induction sidebar generalizing uses with
  | nil => rfl
  | cons group r ih =>
    rw [List.foldl_cons, ih, recordGroup_eq, sidebarTargets, sidebarTargets, List.flatMap_cons,
      List.foldl_append]

theorem ofSidebar_eq_met (sidebar : List SidebarGroup) :
    ofSidebar sidebar = met (sidebarTargets sidebar) :=
  (foldl_recordGroup [] sidebar).trans (foldl_record_met [] (sidebarTargets sidebar))

theorem repeated_ofSidebar (sidebar : List SidebarGroup) :
    (ofSidebar sidebar).repeated = duplicateLinks sidebar := by
  rw [ofSidebar_eq_met, repeated, met, List.filterMap_map]
  rfl

end LinkUses

/-- One finding for every link that occurs at least twice, in the order of first occurrence, with
the groups of all its occurrences. -/
def ReportsRepeats (targets : List (String × String)) (found : List Finding) : Prop :=
  ∃ links : List String,
    found = links.map (fun link => .duplicateLink link (groupsOf link targets)) ∧
      (∀ link, link ∈ links ↔ 2 ≤ (targets.map (·.1)).count link) ∧
      links.Pairwise fun a b => (targets.map (·.1)).idxOf a < (targets.map (·.1)).idxOf b

theorem reportsRepeats_duplicateLinks (sidebar : List SidebarGroup) :
    ReportsRepeats (sidebarTargets sidebar) (duplicateLinks sidebar) := by
  refine ⟨(firstOccurrences ((sidebarTargets sidebar).map (·.1))).filter fun link =>
    1 < (groupsOf link (sidebarTargets sidebar)).length, ?_, ?_, ?_⟩
  · rw [← List.filterMap_eq_map, List.filterMap_filter]
    simp [duplicateLinks]
  · intro link
    rw [List.mem_filter, mem_firstOccurrences, decide_eq_true_eq, length_groupsOf,
      ← List.count_pos_iff]
    omega
  · exact pairwise_firstOccurrences.filter _

theorem findings_of_sidebarFault? {sidebar : List SidebarGroup} {fault : Fault}
    (h : sidebarFault? sidebar = some fault) : fault.findings = duplicateLinks sidebar := by
  rw [← findings_sidebarFault?, h]
  simp [Fault.findingsOf]

/-- There is no fault exactly when all links of a sidebar lead to different paths. Otherwise its
findings are one for every link that is repeated, as a single walk finds them. -/
theorem sidebarFault?_exact (sidebar : List SidebarGroup) :
    (sidebarFault? sidebar = none ↔ ((sidebarTargets sidebar).map (·.1)).Nodup) ∧
      ∀ fault, sidebarFault? sidebar = some fault →
        ReportsRepeats (sidebarTargets sidebar) fault.findings ∧
          fault.findings = (LinkUses.ofSidebar sidebar).repeated := by
  constructor
  · rw [sidebarFault?_eq_none_iff, CollisionFree, map_fst_sidebarTargets]
  · intro fault h
    rw [findings_of_sidebarFault? h, LinkUses.repeated_ofSidebar]
    exact ⟨reportsRepeats_duplicateLinks sidebar, rfl⟩

end DocSite
