import DocSite.Finding

namespace DocSite

namespace Fault

def members : Fault → List Fault
  | .wrap _ inner => [inner]
  | .join members => members
  | _ => []

/-- The part of a fault at an address, which gives the number of the member to go to for every step
down. -/
def at? : Fault → List Nat → Option Fault
  | fault, [] => some fault
  | fault, i :: r => fault.members[i]?.bind fun member => member.at? r

/-- A fault that is not put together from others, not even from none. -/
def IsLeaf : Fault → Prop
  | .wrap _ _ | .join _ => False
  | _ => True

/-- These findings, with their addresses, are all that stand in a fault, from left to right. -/
structure Placed (fault : Fault) (found : List (List Nat × Finding)) : Prop where
  mem_iff (address : List Nat) (f : Finding) :
    (address, f) ∈ found ↔ fault.at? address = some (.finding f)
  ascending : (found.map (·.1)).Pairwise (· < ·)

@[simp] theorem at?_nil (fault : Fault) : fault.at? [] = some fault := rfl

@[simp] theorem at?_cons (fault : Fault) (i : Nat) (r : List Nat) :
    fault.at? (i :: r) = fault.members[i]?.bind fun member => member.at? r := rfl

theorem IsLeaf.members_eq_nil {fault : Fault} (h : fault.IsLeaf) : fault.members = [] := by
  cases fault with
  | wrap | join => exact False.elim h
  | _ => rfl

section Placed

structure PlacedFrom (i : Nat) (members : List Fault) (found : List (List Nat × Finding)) :
    Prop where
  mem_iff (address : List Nat) (f : Finding) :
    (address, f) ∈ found ↔ ∃ k r, address = (i + k) :: r ∧
      (members[k]?.bind fun member => member.at? r) = some (.finding f)
  ascending : (found.map (·.1)).Pairwise (· < ·)

def under (i : Nat) (p : List Nat × Finding) : List Nat × Finding := (i :: p.1, p.2)

theorem mem_map_under {i : Nat} {found : List (List Nat × Finding)} {address : List Nat}
    {f : Finding} :
    (address, f) ∈ found.map (under i) ↔ ∃ r, address = i :: r ∧ (r, f) ∈ found := by
  simp only [List.mem_map, under, Prod.mk.injEq, Prod.exists]
  constructor
  · rintro ⟨r, g, hmem, rfl, rfl⟩
    exact ⟨r, rfl, hmem⟩
  · rintro ⟨r, rfl, hmem⟩
    exact ⟨r, f, hmem, rfl, rfl⟩

theorem ascending_map_under {i : Nat} {found : List (List Nat × Finding)}
    (h : (found.map (·.1)).Pairwise (· < ·)) :
    ((found.map (under i)).map (·.1)).Pairwise (· < ·) := by
  rw [List.pairwise_map] at h
  rw [List.map_map, List.pairwise_map]
  exact h.imp fun hlt => List.cons_lt_cons_iff.mpr (.inr ⟨rfl, hlt⟩)

theorem Placed.finding (f : Finding) : Placed (.finding f) [([], f)] where
  mem_iff address g := by
    cases address with
    | nil => simp [eq_comm]
    | cons i r => simp [members]
  ascending := List.pairwise_singleton _ _

theorem Placed.of_members {fault : Fault} {found : List (List Nat × Finding)}
    (hfault : ∀ f, fault ≠ .finding f) (h : PlacedFrom 0 fault.members found) :
    Placed fault found where
  mem_iff address f := by
    rw [h.mem_iff]
    cases address with
    | nil => simpa using hfault f
    | cons i r =>
      constructor
      · rintro ⟨k, r, heq, hat⟩
        obtain ⟨rfl, rfl⟩ := List.cons.inj heq
        simpa using hat
      · exact fun hat => ⟨i, r, by rw [Nat.zero_add], hat⟩
  ascending := h.ascending

theorem PlacedFrom.nil (i : Nat) : PlacedFrom i [] [] where
  mem_iff address f := by simp
  ascending := .nil

theorem PlacedFrom.cons {i : Nat} {member : Fault} {members : List Fault}
    {first rest : List (List Nat × Finding)} (h : Placed member first)
    (hrest : PlacedFrom (i + 1) members rest) :
    PlacedFrom i (member :: members) (first.map (under i) ++ rest) where
  mem_iff address f := by
    rw [List.mem_append, mem_map_under, hrest.mem_iff]
    constructor
    · rintro (⟨r, rfl, hmem⟩ | ⟨k, r, rfl, hat⟩)
      · exact ⟨0, r, rfl, by simpa using (h.mem_iff r f).mp hmem⟩
      · exact ⟨k + 1, r, by rw [Nat.add_right_comm, Nat.add_assoc], by simpa using hat⟩
    · rintro ⟨k, r, rfl, hat⟩
      cases k with
      | zero => exact .inl ⟨r, rfl, (h.mem_iff r f).mpr (by simpa using hat)⟩
      | succ k =>
        exact .inr ⟨k, r, by rw [Nat.add_right_comm, Nat.add_assoc], by simpa using hat⟩
  ascending := by
    rw [List.map_append, List.pairwise_append]
    refine ⟨ascending_map_under h.ascending, hrest.ascending, fun a ha b hb => ?_⟩
    -- the addresses of the first member start with `i`, and those of the others with more
    obtain ⟨⟨a, f⟩, hmem, rfl⟩ := List.mem_map.mp ha
    obtain ⟨⟨b, g⟩, hmem', rfl⟩ := List.mem_map.mp hb
    obtain ⟨r, rfl, _⟩ := mem_map_under.mp hmem
    obtain ⟨k, r', rfl, _⟩ := (hrest.mem_iff b g).mp hmem'
    exact List.cons_lt_cons_iff.mpr (.inl (by omega))

mutual

theorem exists_placed : (fault : Fault) →
    ∃ found, Placed fault found ∧ found.map (·.2) = fault.findings
  | .finding f => ⟨_, .finding f, rfl⟩
  | .wrap context inner => by
    obtain ⟨found, hplaced, hfound⟩ := exists_placed inner
    refine ⟨_, .of_members nofun (.cons hplaced (.nil 1)), ?_⟩
    rw [List.append_nil, List.map_map, findings, ← hfound]
    rfl
  | .join members => by
    obtain ⟨found, hplaced, hfound⟩ := exists_placedFrom 0 members
    exact ⟨found, .of_members nofun hplaced, by rw [findings, hfound]⟩
  | .invalidConfig | .unsupportedFormat _ | .file .. | .system _ | .unreadable .. | .plain _ =>
    ⟨[], .of_members nofun (.nil 0), rfl⟩

theorem exists_placedFrom (i : Nat) : (members : List Fault) →
    ∃ found, PlacedFrom i members found ∧ found.map (·.2) = findingsOf members
  | [] => ⟨[], .nil i, rfl⟩
  | member :: r => by
    obtain ⟨first, hfirst, hlist⟩ := exists_placed member
    obtain ⟨rest, hrest, hlist'⟩ := exists_placedFrom (i + 1) r
    refine ⟨_, .cons hfirst hrest, ?_⟩
    rw [List.map_append, List.map_map, findingsOf, ← hlist, ← hlist']
    rfl

end

theorem findings_ne_nil_iff {fault : Fault} :
    fault.findings ≠ [] ↔ ∃ address f, fault.at? address = some (.finding f) := by
  obtain ⟨found, hplaced, hfound⟩ := exists_placed fault
  simp only [← hplaced.mem_iff, ← hfound, ne_eq, List.map_eq_nil_iff]
  constructor
  · intro h
    obtain ⟨⟨address, f⟩, hmem⟩ := List.exists_mem_of_ne_nil found h
    exact ⟨address, f, hmem⟩
  · rintro ⟨address, f, hmem⟩
    exact List.ne_nil_of_mem hmem

end Placed

theorem findingsOf_eq_flatMap (members : List Fault) :
    findingsOf members = members.flatMap findings := by
  induction members with
  | nil => rfl
  | cons f r ih => rw [findingsOf, ih, List.flatMap_cons]

theorem findings_joinAll? (members : List (Option Fault)) :
    findingsOf (joinAll? members).toList = (members.filterMap id).flatMap findings := by
  rw [joinAll?, ← findingsOf_eq_flatMap]
  split
  case h_1 hnil => rw [hnil]; rfl
  case h_2 => simp [findingsOf, findings]

section Any

variable {p : Fault → Bool}

def HasLeaf (p : Fault → Bool) (fault : Fault) : Prop :=
  ∃ address leaf, fault.at? address = some leaf ∧ leaf.IsLeaf ∧ p leaf = true

theorem IsLeaf.hasLeaf_iff {fault : Fault} (h : fault.IsLeaf) :
    fault.HasLeaf p ↔ p fault = true := by
  constructor
  · rintro ⟨address, leaf, hat, _, hp⟩
    cases address with
    | nil =>
      obtain rfl := Option.some.inj hat
      exact hp
    | cons i r => simp [h.members_eq_nil] at hat
  · exact fun hp => ⟨[], fault, rfl, h, hp⟩

theorem IsLeaf.any_iff {fault : Fault} (h : fault.IsLeaf) :
    fault.any p = true ↔ fault.HasLeaf p := by
  rw [h.hasLeaf_iff]
  cases fault with
  | wrap | join => exact False.elim h
  | _ => rfl

theorem hasLeaf_iff {fault : Fault} (h : ¬fault.IsLeaf) :
    fault.HasLeaf p ↔ ∃ member ∈ fault.members, member.HasLeaf p := by
  constructor
  · rintro ⟨address, leaf, hat, hleaf⟩
    cases address with
    | nil =>
      obtain rfl := Option.some.inj hat
      exact absurd hleaf.1 h
    | cons i r =>
      obtain ⟨member, hmember, hat⟩ := Option.bind_eq_some_iff.mp hat
      exact ⟨member, List.mem_of_getElem? hmember, r, leaf, hat, hleaf⟩
  · rintro ⟨member, hmem, r, leaf, hat, hleaf⟩
    obtain ⟨i, hmember⟩ := List.mem_iff_getElem?.mp hmem
    exact ⟨i :: r, leaf, by rw [at?_cons, hmember, Option.bind_some, hat], hleaf⟩

mutual

theorem any_iff : (fault : Fault) → (fault.any p = true ↔ fault.HasLeaf p)
  | .wrap context inner => by
    rw [any, any_iff inner, hasLeaf_iff (show ¬(wrap context inner).IsLeaf from id), members]
    simp
  | .join members => by
    rw [any, anyOf_iff members, hasLeaf_iff (show ¬(join members).IsLeaf from id), Fault.members]
  | .finding _ | .invalidConfig | .unsupportedFormat _ | .file .. | .system _ | .unreadable ..
  | .plain _ => IsLeaf.any_iff trivial

theorem anyOf_iff : (members : List Fault) →
    (anyOf p members = true ↔ ∃ member ∈ members, member.HasLeaf p)
  | [] => by simp [anyOf]
  | member :: members => by
    rw [anyOf, Bool.or_eq_true, any_iff member, anyOf_iff members]
    simp

end

end Any

/-- A fault says that a configuration is invalid by a finding somewhere in it, or in so many words.
-/
theorem isInvalidConfig_iff {fault : Fault} :
    fault.isInvalidConfig = true ↔
      fault.findings ≠ [] ∨ ∃ address, fault.at? address = some .invalidConfig := by
  rw [isInvalidConfig, any_iff, findings_ne_nil_iff]
  constructor
  · rintro ⟨address, leaf, hat, _, hp⟩
    cases leaf with
    | finding f => exact .inl ⟨address, f, hat⟩
    | invalidConfig => exact .inr ⟨address, hat⟩
    | _ => cases hp
  · rintro (⟨address, f, hat⟩ | ⟨address, hat⟩)
    · exact ⟨address, _, hat, trivial, rfl⟩
    · exact ⟨address, _, hat, trivial, rfl⟩

section Message

theorem message_finding (f : Finding) : message (.finding f) = f.message := rfl

theorem messages_cons (f : Fault) (r : List Fault) : messages (f :: r) = message f :: messages r :=
  rfl

theorem messages_eq_map (members : List Fault) : messages members = members.map message := by
  induction members with
  | nil => rfl
  | cons f r ih => rw [messages_cons, ih, List.map_cons]

theorem message_join (members : List Fault) :
    message (.join members) = String.intercalate "\n" (members.map message) :=
  congrArg (String.intercalate "\n") (messages_eq_map members)

theorem message_join_finding (l : List Finding) :
    message (.join (l.map .finding)) = String.intercalate "\n" (l.map Finding.message) := by
  have hmessage : message ∘ Fault.finding = Finding.message := funext message_finding
  rw [message_join, List.map_map, hmessage]

theorem message_join_join {members inner : List Fault} (h : inner ≠ []) :
    message (.join (members ++ [.join inner])) = message (.join (members ++ inner)) := by
  cases members with
  | nil =>
    rw [List.nil_append, List.nil_append, message_join, List.map_singleton,
      String.intercalate_singleton]
  | cons f r =>
    have hne : (f :: r).map message ≠ [] := by simp
    rw [message_join, message_join, List.map_append, List.map_append, List.map_singleton,
      String.intercalate_append_of_ne_nil hne (by simp), String.intercalate_singleton,
      String.intercalate_append_of_ne_nil hne (by simpa using h), message_join]

end Message

end Fault

end DocSite
