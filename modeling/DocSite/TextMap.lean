import DocSite.Text.Order

namespace DocSite

structure TextMap where
  entries : List (String × String)
  ascending : entries.Pairwise fun a b => Text.before a.1 b.1
deriving DecidableEq, Repr

namespace TextMap

def empty : TextMap := ⟨[], .nil⟩

def insertEntry (key value : String) : List (String × String) → List (String × String)
  | [] => [(key, value)]
  | e :: r =>
    if Text.before key e.1 then (key, value) :: e :: r
    else if key = e.1 then (key, value) :: r
    else e :: insertEntry key value r

theorem mem_insertEntry {key value : String} {l : List (String × String)} {e : String × String}
    (h : e ∈ insertEntry key value l) : e = (key, value) ∨ e ∈ l := by
  induction l with
  | nil => simpa [insertEntry] using h
  | cons a r ih =>
    simp only [insertEntry] at h
    split at h
    · simpa using h
    · split at h
      · simp at h; grind
      · simp at h; grind

theorem insertEntry_ascending {key value : String} {l : List (String × String)}
    (h : l.Pairwise fun a b => Text.before a.1 b.1) :
    (insertEntry key value l).Pairwise fun a b => Text.before a.1 b.1 := by
  induction l with
  | nil => simp [insertEntry]
  | cons a r ih =>
    rw [List.pairwise_cons] at h
    simp only [insertEntry]
    split
    case isTrue hka =>
      rw [List.pairwise_cons]
      refine ⟨fun e he => ?_, List.pairwise_cons.mpr h⟩
      rcases List.mem_cons.mp he with rfl | he
      · exact hka
      · exact Text.before_trans hka (h.1 e he)
    case isFalse hka =>
      split
      case isTrue heq =>
        subst heq
        exact List.pairwise_cons.mpr h
      case isFalse hne =>
        rw [List.pairwise_cons]
        refine ⟨fun e he => ?_, ih h.2⟩
        rcases mem_insertEntry he with rfl | he
        · rcases Text.before_trichotomy a.1 key with h' | h' | h'
          · exact h'
          · exact absurd h'.symm hne
          · exact absurd h' hka
        · exact h.1 e he

def insert (m : TextMap) (key value : String) : TextMap :=
  ⟨insertEntry key value m.entries, insertEntry_ascending m.ascending⟩

def ofList (l : List (String × String)) : TextMap :=
  l.foldl (fun m e => m.insert e.1 e.2) empty

def get? (m : TextMap) (key : String) : Option String :=
  m.entries.lookup key

def mapValues (f : String → String → String) (m : TextMap) : TextMap where
  entries := m.entries.map fun e => (e.1, f e.1 e.2)
  ascending := List.pairwise_map.mpr m.ascending

def isEmpty (m : TextMap) : Bool := m.entries.isEmpty

end TextMap

end DocSite
