import DocSite.Proofs.Path
import Mathlib.Data.List.Basic
import Mathlib.Logic.Relation

namespace DocSite.Path

def IsOrdinary (name : Name) : Prop :=
  name ≠ [] ∧ name ≠ ['.'] ∧ name ≠ ['.', '.']

/-- Keeps one more name on a stack whose top is at the end: an empty name and a dot are dropped, and
two dots take away the top, if there is one. -/
def keep (kept : List Name) (name : Name) : List Name :=
  if name = [] ∨ name = ['.'] then kept
  else if name = ['.', '.'] then kept.dropLast
  else kept ++ [name]

def keptNames (names : List Name) : List Name := names.foldl keep []

/-- The rules that make the list of a rooted path's names shorter. -/
inductive Shortens : List Name → List Name → Prop
  | empty (a b : List Name) : Shortens (a ++ [] :: b) (a ++ b)
  | dot (a b : List Name) : Shortens (a ++ ['.'] :: b) (a ++ b)
  | up (a b : List Name) {name : Name} :
    IsOrdinary name → Shortens (a ++ name :: ['.', '.'] :: b) (a ++ b)
  | root (b : List Name) : Shortens (['.', '.'] :: b) b

/-- The second list is what the rules leave of the first when none of them applies any more. -/
def LeftOf (names left : List Name) : Prop :=
  Relation.ReflTransGen Shortens names left ∧ ∀ shorter, ¬Shortens left shorter

theorem segments_eq_splitOn (path : List Char) : segments path = path.splitOn '/' := by
  induction path with
  | nil => rfl
  | cons c r ih =>
    rw [List.splitOn_eq_splitOnP, List.splitOnP_cons_eq_if_modifyHead, ← List.splitOn_eq_splitOnP,
      ← ih]
    by_cases hc : c = '/'
    · rw [segments, if_pos hc, if_pos (beq_iff_eq.mpr hc)]
    · obtain ⟨s, t, h⟩ := List.exists_cons_of_ne_nil (segments_ne_nil r)
      rw [segments_cons hc h, h, if_neg (by simpa using hc), List.modifyHead_cons]

section Keep

variable (kept : List Name)

@[simp] theorem keep_empty : keep kept [] = kept := if_pos (.inl rfl)

@[simp] theorem keep_dot : keep kept ['.'] = kept := if_pos (.inr rfl)

@[simp] theorem keep_dots : keep kept ['.', '.'] = kept.dropLast := rfl

theorem keep_of_isOrdinary {name : Name} (h : IsOrdinary name) :
    keep kept name = kept ++ [name] := by
  rw [keep, if_neg (not_or.mpr ⟨h.1, h.2.1⟩), if_neg h.2.2]

theorem keep_cases (name : Name) :
    name = [] ∨ name = ['.'] ∨ name = ['.', '.'] ∨ IsOrdinary name := by
  unfold IsOrdinary
  tauto

theorem reverse_step (place : Place) (name : Name) :
    (step place name).reverse = keep place.reverse name := by
  unfold step
  split
  case h_1 => rw [keep_empty]
  case h_2 => rw [keep_dot]
  case h_3 => rw [keep_dots, List.dropLast_reverse]
  case h_4 h1 h2 h3 => rw [List.reverse_cons, keep_of_isOrdinary _ ⟨h1, h2, h3⟩]

theorem keep_name_dots {name : Name} (h : IsOrdinary name) :
    keep (keep kept name) ['.', '.'] = kept := by
  rw [keep_of_isOrdinary kept h, keep_dots, List.dropLast_concat]

theorem isOrdinary_keep {name : Name} (h : ∀ n ∈ kept, IsOrdinary n) :
    ∀ n ∈ keep kept name, IsOrdinary n := by
  rcases keep_cases name with rfl | rfl | rfl | hname
  · rwa [keep_empty]
  · rwa [keep_dot]
  · rw [keep_dots]
    exact fun n hn => h n (List.dropLast_subset kept hn)
  · rw [keep_of_isOrdinary kept hname, List.forall_mem_append]
    exact ⟨h, by simpa using hname⟩

theorem isOrdinary_foldl_keep {names : List Name} (h : ∀ n ∈ kept, IsOrdinary n) :
    ∀ n ∈ names.foldl keep kept, IsOrdinary n := by
  induction names generalizing kept with
  | nil => exact h
  | cons name r ih => exact ih _ (isOrdinary_keep kept h)

end Keep

theorem isOrdinary_keptNames (names : List Name) : ∀ n ∈ keptNames names, IsOrdinary n :=
  isOrdinary_foldl_keep [] (by simp)

theorem reverse_foldl_step (place : Place) (names : List Name) :
    (names.foldl step place).reverse = names.foldl keep place.reverse := by
  induction names generalizing place with
  | nil => rfl
  | cons name r ih => rw [List.foldl_cons, List.foldl_cons, ih, reverse_step]

theorem reverse_follow (path : List Char) :
    (follow [] path).reverse = keptNames (path.splitOn '/') := by
  rw [follow, reverse_foldl_step, segments_eq_splitOn]
  rfl

theorem proper_keptNames (path : List Char) : ∀ n ∈ keptNames (path.splitOn '/'), Proper n := by
  rw [← reverse_follow]
  exact fun n hn => follow_proper (by simp) path n (List.mem_reverse.mp hn)

theorem flatMap_slash {names : List Name} (h : names ≠ []) :
    names.flatMap ('/' :: ·) = '/' :: ['/'].intercalate names := by
  induction names with
  | nil => exact absurd rfl h
  | cons name r ih =>
    cases r with
    | nil => simp
    | cons next r =>
      rw [List.flatMap_cons, ih (List.cons_ne_nil _ _), List.intercalate_cons_cons]
      simp

theorem cleanAbsolute_eq_intercalate (path : List Char) :
    cleanAbsolute path = '/' :: ['/'].intercalate (keptNames (path.splitOn '/')) := by
  rw [cleanAbsolute, render, reverse_follow]
  split
  case h_1 h => rw [h]; rfl
  case h_2 h => exact flatMap_slash h

theorem Shortens.keptNames_eq {names shorter : List Name} (h : Shortens names shorter) :
    keptNames names = keptNames shorter := by
  unfold keptNames
  cases h with
  | empty a b => rw [List.foldl_append, List.foldl_append, List.foldl_cons, keep_empty]
  | dot a b => rw [List.foldl_append, List.foldl_append, List.foldl_cons, keep_dot]
  | up a b hname =>
    rw [List.foldl_append, List.foldl_append, List.foldl_cons, List.foldl_cons,
      keep_name_dots _ hname]
  | root b => rfl

theorem Shortens.exists_not_isOrdinary {names shorter : List Name} (h : Shortens names shorter) :
    ∃ n ∈ names, ¬IsOrdinary n := by
  cases h with
  | empty a b => exact ⟨[], by simp, by simp [IsOrdinary]⟩
  | dot a b => exact ⟨['.'], by simp, by simp [IsOrdinary]⟩
  | up a b => exact ⟨['.', '.'], by simp, by simp [IsOrdinary]⟩
  | root b => exact ⟨['.', '.'], by simp, by simp [IsOrdinary]⟩

open Relation

theorem reaches_foldl_keep {kept : List Name} (names : List Name) (h : ∀ n ∈ kept, IsOrdinary n) :
    ReflTransGen Shortens (kept ++ names) (names.foldl keep kept) := by
  induction names generalizing kept with
  | nil => rw [List.append_nil, List.foldl_nil]
  | cons name r ih =>
    have hrest : ReflTransGen Shortens (keep kept name ++ r) (r.foldl keep (keep kept name)) :=
      ih (isOrdinary_keep kept h)
    rw [List.foldl_cons]
    rcases keep_cases name with rfl | rfl | rfl | hname
    · rw [keep_empty] at hrest ⊢
      exact .head (.empty kept r) hrest
    · rw [keep_dot] at hrest ⊢
      exact .head (.dot kept r) hrest
    · rw [keep_dots] at hrest ⊢
      rcases List.eq_nil_or_concat' kept with rfl | ⟨below, top, rfl⟩
      · exact .head (.root r) hrest
      · rw [List.dropLast_concat] at hrest ⊢
        rw [List.append_assoc, List.singleton_append]
        exact .head (.up below r (h top (by simp))) hrest
    · rw [keep_of_isOrdinary kept hname] at hrest ⊢
      rwa [List.append_assoc, List.singleton_append] at hrest

theorem reaches_keptNames (names : List Name) : ReflTransGen Shortens names (keptNames names) :=
  reaches_foldl_keep names (List.forall_mem_nil _)

/-- In whatever order the rules are applied, they end in the names that a pass keeps. -/
theorem leftOf_iff {names left : List Name} : LeftOf names left ↔ left = keptNames names := by
  constructor
  · rintro ⟨hreach, hleft⟩
    have hkept : keptNames names = keptNames left := by
      induction hreach using ReflTransGen.head_induction_on with
      | refl => rfl
      | head h _ ih => rw [h.keptNames_eq, ih]
    rcases (reaches_keptNames left).cases_head with hself | ⟨shorter, h, _⟩
    · rw [hkept, ← hself]
    · exact absurd h (hleft shorter)
  · rintro rfl
    refine ⟨reaches_keptNames names, fun shorter h => ?_⟩
    obtain ⟨n, hn, hordinary⟩ := h.exists_not_isOrdinary
    exact hordinary (isOrdinary_keptNames names n hn)

end DocSite.Path
