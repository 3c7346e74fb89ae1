import DocSite.Proofs.Fault
import DocSite.Schema.Build

namespace DocSite

theorem findings_sidebarFault? (sidebar : List SidebarGroup) :
    Fault.findingsOf (sidebarFault? sidebar).toList = duplicateLinks sidebar := by
  rw [sidebarFault?]
  split
  case h_1 hnil => exact hnil.symm
  case h_2 => simp [Fault.findingsOf, Fault.findings]

theorem findings_of_build {declaration : Fields} {fault : Fault}
    (h : build declaration = .error fault) :
    fault.findings = (Schema.site declaration).findings ++
      duplicateLinks ((Schema.site declaration).value.theme.sidebar.getD []) := by
  rw [build] at h
  split at h
  case h_1 => cases h
  case h_2 =>
    obtain rfl := Except.error.inj h
    rw [Fault.findings, Fault.findingsOf_append, Fault.findingsOf_map_finding,
      findings_sidebarFault?]

theorem findings_ne_nil_of_build {declaration : Fields} {fault : Fault}
    (h : build declaration = .error fault) : fault.findings ≠ [] := by
  rw [findings_of_build h]
  intro hnil
  rw [List.append_eq_nil_iff] at hnil
  simp [build, hnil.1, sidebarFault?, hnil.2] at h

theorem isInvalidConfig_of_build {declaration : Fields} {fault : Fault}
    (h : build declaration = .error fault) : fault.isInvalidConfig = true :=
  Fault.isInvalidConfig_iff.mpr (.inl (findings_ne_nil_of_build h))

theorem message_of_build {declaration : Fields} {fault : Fault}
    (h : build declaration = .error fault) :
    fault.message = String.intercalate "\n" (fault.findings.map Finding.message) := by
  rw [findings_of_build h]
  rw [build] at h
  split at h
  case h_1 => cases h
  case h_2 =>
    obtain rfl := Except.error.inj h
    rw [sidebarFault?]
    split
    case h_1 hnil =>
      rw [hnil, Option.toList_none, List.append_nil, List.append_nil, Fault.message_join_finding]
    case h_2 hne =>
      rw [Option.toList_some, Fault.message_join_join (by simpa using hne), ← List.map_append,
        Fault.message_join_finding]

open Fault in
/-- The findings of a fault are those in its tree, from left to right and each as often as it stands
there. A context changes nothing about them and a join puts them one after the other. They make the
configuration invalid, as does the bare statement that it is; and a build that fails has some, which
are its words. -/
theorem fault_tells_findings :
    (∀ fault : Fault, (∃ found, Placed fault found ∧ fault.findings = found.map (·.2)) ∧
      (fault.isInvalidConfig = true ↔
        fault.findings ≠ [] ∨ ∃ address, fault.at? address = some .invalidConfig)) ∧
    (∀ context inner, (wrap context inner).findings = inner.findings) ∧
    (∀ members, (join members).findings = members.flatMap findings) ∧
    (∀ members, findingsOf (joinAll? members).toList = (members.filterMap id).flatMap findings) ∧
    ∀ declaration fault, build declaration = .error fault →
      fault.findings ≠ [] ∧ fault.isInvalidConfig = true ∧
        fault.message = String.intercalate "\n" (fault.findings.map Finding.message) := by
  refine ⟨fun fault => ⟨?_, isInvalidConfig_iff⟩, fun _ _ => rfl, findingsOf_eq_flatMap,
    findings_joinAll?, fun _ _ h =>
      ⟨findings_ne_nil_of_build h, isInvalidConfig_of_build h, message_of_build h⟩⟩
  obtain ⟨found, hplaced, hfound⟩ := exists_placed fault
  exact ⟨found, hplaced, hfound.symm⟩

theorem fault_tells_findings_repeated_link :
    let entry (text link : String) : Value := .record [("text", .text text), ("link", .text link)]
    let declaration : Fields := [("title", .text "Docs"),
      ("themeConfig", .record [("sidebar", .list [entry "Start" "/guide", entry "More" "guide/"])])]
    let fault : Fault := .join [.finding (.missingField "description"),
      .join [.finding (.duplicateLink "/guide" ["Start", "More"])]]
    build declaration = .error fault ∧ fault.findings ≠ [] ∧ fault.isInvalidConfig = true ∧
      fault.message = String.intercalate "\n" (fault.findings.map Finding.message) := by
  intro entry declaration fault
  have hschema : (Schema.site declaration).findings = [.missingField "description"] := by
    decide +kernel
  have hlinks : duplicateLinks ((Schema.site declaration).value.theme.sidebar.getD []) =
      [.duplicateLink "/guide" ["Start", "More"]] := by decide +kernel
  have h : build declaration = .error fault := by
    rw [build, hschema, sidebarFault?, hlinks]
    rfl
  exact ⟨h, fault_tells_findings.2.2.2.2 declaration fault h⟩

end DocSite
