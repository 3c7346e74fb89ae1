import DocSite.Proofs.TextMap
import DocSite.Proofs.Value
import Mathlib.Data.List.Perm.Basic

namespace DocSite

namespace Text

theorem perm_insertBy (lt : α → α → Bool) (a : α) (l : List α) :
    (insertBy lt a l).Perm (a :: l) := by
  induction l with
  | nil => exact .refl _
  | cons b r ih =>
    rw [insertBy]
    split
    · exact .refl _
    · exact (ih.cons b).trans (.swap a b r)

theorem perm_sortBy (lt : α → α → Bool) (l : List α) : (sortBy lt l).Perm l := by
  have hfold : ∀ sorted,
      (l.foldl (fun sorted a => insertBy lt a sorted) sorted).Perm (sorted ++ l) := by
    induction l with
    | nil => simp
    | cons a r ih =>
      intro sorted
      rw [List.foldl_cons]
      refine (ih _).trans (((perm_insertBy lt a sorted).append_right r).trans ?_)
      exact List.perm_middle.symm
  exact hfold []

theorem map_insertBy {f : α → β} {lt : α → α → Bool} {lt' : β → β → Bool}
    (h : ∀ a b, lt' (f a) (f b) = lt a b) (a : α) (l : List α) :
    (insertBy lt a l).map f = insertBy lt' (f a) (l.map f) := by
  induction l with
  | nil => rfl
  | cons b r ih =>
    rw [insertBy, List.map_cons, insertBy, h]
    split <;> simp [ih]

theorem map_sortBy {f : α → β} {lt : α → α → Bool} {lt' : β → β → Bool}
    (h : ∀ a b, lt' (f a) (f b) = lt a b) (l : List α) :
    (sortBy lt l).map f = sortBy lt' (l.map f) := by
  have hfold : ∀ sorted : List α, (l.foldl (fun s a => insertBy lt a s) sorted).map f =
      (l.map f).foldl (fun s a => insertBy lt' a s) (sorted.map f) := by
    induction l with
    | nil => simp
    | cons a r ih =>
      intro sorted
      rw [List.foldl_cons, ih, map_insertBy h, List.map_cons, List.foldl_cons]
  exact hfold []

theorem pairwise_insertBy {a : String} {l : List String}
    (h : l.Pairwise fun a b => ¬before b a) :
    (insertBy before a l).Pairwise fun a b => ¬before b a := by
  induction l with
  | nil => simp [insertBy]
  | cons b r ih =>
    rw [List.pairwise_cons] at h
    rw [insertBy]
    split
    · rename_i hab
      refine List.pairwise_cons.mpr ⟨fun c hc => ?_, List.pairwise_cons.mpr h⟩
      rcases List.mem_cons.mp hc with rfl | hc
      · exact before_asymm hab
      · exact fun hca => h.1 c hc (before_trans hca hab)
    · rename_i hab
      refine List.pairwise_cons.mpr ⟨fun c hc => ?_, ih h.2⟩
      rcases mem_insertBy.mp hc with rfl | hc
      · exact hab
      · exact h.1 c hc

theorem pairwise_sortTexts (l : List String) : (sortTexts l).Pairwise fun a b => ¬before b a := by
  have hfold : ∀ sorted : List String, (sorted.Pairwise fun a b => ¬before b a) →
      (l.foldl (fun sorted a => insertBy before a sorted) sorted).Pairwise fun a b =>
        ¬before b a := by
    induction l with
    | nil => exact fun _ h => h
    | cons a r ih => exact fun _ h => ih _ (pairwise_insertBy h)
  exact hfold [] .nil

theorem eq_sortTexts_of_perm {l s : List String} (hperm : s.Perm l)
    (hs : s.Pairwise fun a b => ¬before b a) : s = sortTexts l := by
  refine (hperm.trans (perm_sortBy before l).symm).eq_of_pairwise (fun a b _ _ hba hab => ?_) hs
    (pairwise_sortTexts l)
  rcases before_trichotomy a b with hlt | heq | hlt
  · exact absurd hlt hab
  · exact heq
  · exact absurd hlt hba

theorem sortTexts_of_perm {l l' : List String} (h : l.Perm l') : sortTexts l = sortTexts l' :=
  eq_sortTexts_of_perm ((perm_sortBy before l).trans h) (pairwise_sortTexts l)

theorem filter_sortTexts (p : String → Bool) (l : List String) :
    (sortTexts l).filter p = sortTexts (l.filter p) :=
  eq_sortTexts_of_perm ((perm_sortBy before l).filter p) ((pairwise_sortTexts l).filter p)

end Text

namespace Fields

variable {fields fields' : Fields}

theorem given?_cons (key k : String) (v : Value) (fields : Fields) :
    given? ((k, v) :: fields) key =
      if key = k then if v.isNull then none else some v else fields.given? key := by
  rw [given?, get?, Text.lookup_cons]
  by_cases hk : key = k
  · rw [if_pos hk, if_pos hk, Option.filter_some]
    cases v.isNull <;> rfl
  · rw [if_neg hk, if_neg hk]
    rfl

theorem get?_eq_some_iff_mem (h : (fields.map (·.1)).Nodup) {key : String} {v : Value} :
    fields.get? key = some v ↔ (key, v) ∈ fields := by
  induction fields with
  | nil => simp [get?]
  | cons f r ih =>
    obtain ⟨k, w⟩ := f
    rw [List.map_cons, List.nodup_cons] at h
    rw [get?, Text.lookup_cons]
    by_cases hk : key = k
    · subst hk
      have hr : (key, v) ∉ r := fun hm => h.1 (List.mem_map.mpr ⟨_, hm, rfl⟩)
      simp [hr, eq_comm]
    · simpa [hk, get?] using ih h.2

theorem get?_of_perm (h : (fields.map (·.1)).Nodup) (hperm : fields'.Perm fields) (key : String) :
    fields'.get? key = fields.get? key := by
  have h' : (fields'.map (·.1)).Nodup := (hperm.map _).nodup_iff.mpr h
  ext v
  rw [get?_eq_some_iff_mem h', get?_eq_some_iff_mem h, hperm.mem_iff]

theorem get?_filter_not_null (h : (fields.map (·.1)).Nodup) (key : String) :
    Fields.get? (fields.filter fun f => !f.2.isNull) key = fields.given? key := by
  have h' : ((fields.filter fun f => !f.2.isNull).map (·.1)).Nodup :=
    (List.filter_sublist.map _).nodup h
  ext v
  rw [get?_eq_some_iff_mem h', given?_eq_some_iff, get?_eq_some_iff_mem h, List.mem_filter]
  simp [← Value.isNull_iff]

end Fields

end DocSite
