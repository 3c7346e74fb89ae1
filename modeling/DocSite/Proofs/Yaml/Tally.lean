import DocSite.Yaml.Node.Tally

namespace DocSite.Yaml

namespace Node

inductive AliasFree : Node → Prop
  | scalar {tag : Option String} {plain : Bool} {text : String} : AliasFree (.scalar tag plain text)
  | sequence {tag : Option String} {items : List Node} : (∀ n ∈ items, AliasFree n) →
    AliasFree (.sequence tag items)
  | mapping {tag : Option String} {entries : List (Node × Node)} : (∀ e ∈ entries, AliasFree e.1) →
    (∀ e ∈ entries, AliasFree e.2) → AliasFree (.mapping tag entries)

end Node

namespace Tally

def Goes {α : Type} (tally : α → Tally) (o : Option α) : Prop := ∃ a ∈ o, (tally a).aliased = 0

section Goes

variable {α β : Type} {f : α → Tally} {g : β → Tally}

theorem Goes.intro {a : α} (h : (f a).aliased = 0) : Goes f (some a) := ⟨a, rfl, h⟩

theorem Goes.bind {o : Option α} {k : α → Option β} (h : Goes f o)
    (hk : ∀ a, (f a).aliased = 0 → Goes g (k a)) : Goes g (o.bind k) := by
  obtain ⟨a, rfl, ha⟩ := h
  exact hk a ha

theorem goes_read {t : Tally} (h : t.aliased = 0) : Goes id (t.read false) := by
  have hnext : (⟨t.all + 1, t.aliased⟩ : Tally).isExcessive = false := by
    simp [isExcessive, h]
  simpa [Goes, read, hnext] using h

end Goes

end Tally

open Tally

section Count

variable {t : Tally}

/-- A node is counted to its end without an alias, both for itself and as one that is merged. -/
structure Node.Counts (n : Node) : Prop where
  count (shape : Shape) {t : Tally} : t.aliased = 0 → Goes id (n.count false shape t)
  source (shape : Shape) (kind : KeyKind) {s : List Scalar × Tally} : s.2.aliased = 0 →
    Goes Prod.snd (n.countSource false shape kind s)

theorem goes_countItems {items : List Node} (h : ∀ n ∈ items, n.Counts) (ht : t.aliased = 0) :
    Goes id (Node.countItems false items t) := by
  induction items generalizing t with
  | nil => exact Goes.intro ht
  | cons item r ih =>
    rw [List.forall_mem_cons] at h
    exact (h.1.count .any ht).bind fun _ => ih h.2

theorem goes_countKeys {entries : List (Node × Node)} (h : ∀ e ∈ entries, e.1.Counts)
    (ht : t.aliased = 0) : Goes id (Node.countKeys false entries t) := by
  induction entries generalizing t with
  | nil => exact Goes.intro ht
  | cons e r ih =>
    rw [List.forall_mem_cons] at h
    exact (h.1.count .any ht).bind fun _ => ih h.2

section Entries

variable (shape : Shape) (kind : KeyKind)

theorem goes_countSources {items : List Node} {s : List Scalar × Tally} (h : ∀ n ∈ items, n.Counts)
    (hs : s.2.aliased = 0) : Goes Prod.snd (Node.countSources false shape kind items s) := by
  induction items generalizing s with
  | nil => exact Goes.intro hs
  | cons item r ih =>
    rw [List.forall_mem_cons] at h
    exact (h.1.source shape kind hs).bind fun _ => ih h.2

theorem goes_countMerged {entries : List (Node × Node)} {s : List Scalar × Tally}
    (h : ∀ e ∈ entries, e.2.Counts) (hs : s.2.aliased = 0) :
    Goes Prod.snd (Node.countMerged false shape kind entries s) := by
  induction entries with
  | nil => exact Goes.intro hs
  | cons e r ih =>
    rw [List.forall_mem_cons] at h
    rw [Node.countMerged]
    split
    · exact h.1.source shape kind hs
    · exact ih h.2

theorem goes_countEntries (track : Bool) {entries : List (Node × Node)} {s : List Scalar × Tally}
    (hkeys : ∀ e ∈ entries, e.1.Counts) (hvalues : ∀ e ∈ entries, e.2.Counts)
    (hs : s.2.aliased = 0) :
    Goes Prod.snd (Node.countEntries false shape kind track entries s) := by
  induction entries generalizing s with
  | nil => exact Goes.intro hs
  | cons e r ih =>
    obtain ⟨key, v⟩ := e
    obtain ⟨seen, t⟩ := s
    rw [List.forall_mem_cons] at hkeys hvalues
    have hrest (seen) {t : Tally} (ht : t.aliased = 0) :
        Goes Prod.snd (Node.countEntries false shape kind track r (seen, t)) :=
      ih hkeys.2 hvalues.2 ht
    rw [Node.countEntries]
    split
    · exact hrest seen hs
    · refine (hkeys.1.count .any hs).bind fun t ht => ?_
      split
      · split
        · exact hrest seen ht
        · split
          · exact hrest _ ht
          · exact (hvalues.1.count _ ht).bind fun _ => hrest _
      · exact hrest seen ht

end Entries

theorem Node.AliasFree.counts {n : Node} (h : n.AliasFree) : n.Counts := by
  induction h with
  | scalar => exact ⟨fun _ _ ht => goes_read ht, fun _ _ _ hs => Goes.intro hs⟩
  | sequence _ ih =>
    constructor
    · intro shape t ht
      exact (goes_read ht).bind fun _ => goes_countItems ih
    · intro shape kind s hs
      exact goes_countSources shape kind ih hs
  | @mapping _ entries _ _ hkeys hvalues =>
    constructor
    · intro shape t ht
      rw [Node.count]
      refine (goes_read ht).bind fun t ht => ?_
      have hown :=
        goes_countEntries shape (shape.keys entries) false hkeys hvalues (s := ([], t)) ht
      refine hown.bind ?_
      intro ⟨_, t⟩ ht
      dsimp only
      by_cases hmerge : entries.any (·.1.isMergeKey) = true
      · rw [if_pos hmerge]
        refine (goes_countKeys hkeys ht).bind fun t ht => ?_
        have hmerged := goes_countMerged shape (shape.keys entries) hvalues
          (s := (entries.filterMap (·.1.keyScalar?), t)) ht
        exact hmerged.bind fun s hs => ⟨s.2, rfl, hs⟩
      · rw [if_neg hmerge]
        exact Goes.intro ht
    · intro shape kind s hs
      refine (goes_read hs).bind fun t ht => ?_
      refine (goes_countEntries shape kind true hkeys hvalues ht).bind fun s hs => ?_
      exact goes_countMerged shape kind hvalues hs

end Count

theorem Node.AliasFree.withinAllowance {n : Node} (h : n.AliasFree) (shape : Shape) :
    n.withinAllowance shape = true := by
  obtain ⟨t, ht, _⟩ := h.counts.count shape (t := ⟨1, 0⟩) rfl
  exact Option.isSome_of_mem ht

end DocSite.Yaml
