import DocSite.TextMap
import Mathlib.Data.List.Basic

namespace DocSite

namespace Text

theorem lookup_cons (key : String) (e : String × α) (r : List (String × α)) :
    (e :: r).lookup key = if key = e.1 then some e.2 else r.lookup key := by
  by_cases h : key = e.1
  · rw [List.lookup_cons, beq_iff_eq.mpr h, if_pos h]
  · rw [List.lookup_cons, beq_false_of_ne h, if_neg h]

theorem lookup_map (f : String → α → β) (key : String) (l : List (String × α)) :
    (l.map fun e => (e.1, f e.1 e.2)).lookup key = (l.lookup key).map (f key) := by
  induction l with
  | nil => rfl
  | cons e r ih =>
    rw [List.map_cons, lookup_cons, lookup_cons, ih]
    by_cases h : key = e.1 <;> simp [h]

theorem rel_lookup {R : α → β → Prop} {a : List (String × α)} {b : List (String × β)}
    (h : List.Forall₂ (fun e f => e.1 = f.1 ∧ R e.2 f.2) a b) (key : String) :
    Option.Rel R (a.lookup key) (b.lookup key) := by
  induction h with
  | nil => exact .none
  | cons hef _ ih =>
    rw [lookup_cons, lookup_cons, hef.1]
    split
    · exact .some hef.2
    · exact ih

theorem mem_insertBy {lt : α → α → Bool} {a b : α} {l : List α} :
    b ∈ insertBy lt a l ↔ b = a ∨ b ∈ l := by
  induction l with
  | nil => simp [insertBy]
  | cons c r ih =>
    rw [insertBy]
    split
    · simp
    · simp only [List.mem_cons, ih]
      tauto

theorem mem_foldl_insertBy {lt : α → α → Bool} {b : α} {l sorted : List α} :
    b ∈ l.foldl (fun sorted a => insertBy lt a sorted) sorted ↔ b ∈ sorted ∨ b ∈ l := by
  induction l generalizing sorted with
  | nil => simp
  | cons a r ih =>
    rw [List.foldl_cons, ih, mem_insertBy, List.mem_cons]
    tauto

@[simp] theorem mem_sortTexts {s : String} {l : List String} : s ∈ sortTexts l ↔ s ∈ l := by
  simp [sortTexts, sortBy, mem_foldl_insertBy]

@[simp] theorem before_irrefl (s : String) : before s s = false :=
  charsBefore_irrefl s.toList

theorem ne_of_before {a b : String} (h : before a b) : a ≠ b := by
  rintro rfl
  simp at h

theorem before_asymm {a b : String} (h : before a b) : ¬before b a :=
  fun h' => ne_of_before (before_trans h h') rfl

end Text

namespace TextMap

theorem lookup_eq_some_iff_mem {l : List (String × String)}
    (h : l.Pairwise fun a b => Text.before a.1 b.1) {key value : String} :
    l.lookup key = some value ↔ (key, value) ∈ l := by
  induction l with
  | nil => simp
  | cons e r ih =>
    obtain ⟨k, v⟩ := e
    rw [List.pairwise_cons] at h
    by_cases hk : key = k
    · subst hk
      have hr : (key, value) ∉ r := fun hm => Text.ne_of_before (h.1 _ hm) rfl
      simp [hr, eq_comm]
    · simp [Text.lookup_cons, hk, ih h.2]

theorem get?_eq_some_iff {m : TextMap} {key value : String} :
    m.get? key = some value ↔ (key, value) ∈ m.entries :=
  lookup_eq_some_iff_mem m.ascending

theorem isEmpty_iff {m : TextMap} : m.isEmpty ↔ m = .empty := by
  obtain ⟨entries, _⟩ := m
  simp [isEmpty, empty]

theorem nodup_entries (m : TextMap) : m.entries.Nodup :=
  m.ascending.imp fun h he => Text.ne_of_before h (congrArg Prod.fst he)

@[ext] theorem ext {a b : TextMap} (h : ∀ key, a.get? key = b.get? key) : a = b := by
  have hmem : ∀ e, e ∈ a.entries ↔ e ∈ b.entries := by
    rintro ⟨key, value⟩
    rw [← get?_eq_some_iff, ← get?_eq_some_iff, h]
  have hperm : a.entries.Perm b.entries :=
    (List.perm_ext_iff_of_nodup a.nodup_entries b.nodup_entries).mpr hmem
  have hentries : a.entries = b.entries :=
    hperm.eq_of_pairwise (fun _ _ _ _ h h' => absurd h' (Text.before_asymm h)) a.ascending
      b.ascending
  cases a
  cases b
  simpa using hentries

theorem lookup_insertEntry (k v key : String) (l : List (String × String)) :
    (insertEntry k v l).lookup key = if key = k then some v else l.lookup key := by
  induction l with
  | nil => simp [insertEntry]
  | cons e r ih =>
    rw [insertEntry]
    split
    · rw [Text.lookup_cons]
    · split
      case isTrue hk =>
        subst hk
        by_cases h : key = e.1 <;> simp [Text.lookup_cons, h]
      case isFalse hk =>
        by_cases h : key = e.1
        · have hne : key ≠ k := fun hek => hk (hek.symm.trans h)
          simp [Text.lookup_cons, h, h ▸ hne]
        · simp [Text.lookup_cons, h, ih]

theorem get?_insert (m : TextMap) (k v key : String) :
    (m.insert k v).get? key = if key = k then some v else m.get? key :=
  lookup_insertEntry k v key m.entries

theorem get?_foldl_insert {l : List (String × String)} {f : String → Option String}
    (h : ∀ e ∈ l, f e.1 = some e.2) (m : TextMap) (key : String) :
    (l.foldl (fun m e => m.insert e.1 e.2) m).get? key =
      if key ∈ l.map (·.1) then f key else m.get? key := by
  induction l generalizing m with
  | nil => rfl
  | cons e r ih =>
    rw [List.foldl_cons, ih fun e he => h e (List.mem_cons_of_mem _ he), get?_insert]
    by_cases hr : key ∈ r.map (·.1)
    · simp only [List.map_cons, List.mem_cons, hr, or_true, if_true]
    · by_cases hk : key = e.1
      · simp [hk, h e List.mem_cons_self]
      · simp only [List.map_cons, List.mem_cons, hr, hk, or_false, if_false]

theorem get?_ofList {l : List (String × String)} {f : String → Option String}
    (h : ∀ e ∈ l, f e.1 = some e.2) (key : String) :
    (ofList l).get? key = if key ∈ l.map (·.1) then f key else none :=
  get?_foldl_insert h empty key

@[simp] theorem get?_mapValues (f : String → String → String) (m : TextMap) (key : String) :
    (m.mapValues f).get? key = (m.get? key).map (f key) :=
  Text.lookup_map f key m.entries

end TextMap

end DocSite
