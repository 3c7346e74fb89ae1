import DocSite.Path
import Mathlib.Data.List.Basic

namespace DocSite.Path

structure Proper (name : Name) : Prop where
  ne_nil : name ≠ []
  ne_dot : name ≠ ['.']
  ne_dots : name ≠ ['.', '.']
  not_slash : '/' ∉ name

/-- The names of a place from the root down, each after a slash. -/
def trail (place : Place) : List Char := place.reverse.flatMap ('/' :: ·)

@[simp] theorem trail_nil : trail [] = [] := rfl

@[simp] theorem trail_cons (name : Name) (place : Place) :
    trail (name :: place) = trail place ++ '/' :: name := by
  simp [trail]

@[simp] theorem render_nil : render [] = ['/'] := rfl

@[simp] theorem render_cons (name : Name) (place : Place) :
    render (name :: place) = trail place ++ '/' :: name := by
  rw [← trail_cons, render, trail]
  split
  · simp_all
  · rfl

theorem segments_ne_nil (path : List Char) : segments path ≠ [] := by
  cases path with
  | nil => simp [segments]
  | cons c r =>
    rw [segments]
    split
    · simp
    · split <;> simp

theorem segments_cons {c : Char} (hc : c ≠ '/') {r : List Char} {s : Name} {t : List Name}
    (h : segments r = s :: t) : segments (c :: r) = (c :: s) :: t := by
  rw [segments, if_neg hc, h]

theorem segments_append_slash (a b : List Char) :
    segments (a ++ '/' :: b) = segments a ++ segments b := by
  induction a with
  | nil => simp [segments]
  | cons c r ih =>
    by_cases hc : c = '/'
    · simp [segments, hc, ih]
    · obtain ⟨s, t, h⟩ := List.exists_cons_of_ne_nil (segments_ne_nil r)
      rw [h, List.cons_append] at ih
      rw [List.cons_append, segments_cons hc ih, segments_cons hc h, List.cons_append]

theorem segments_of_not_mem {name : Name} (h : '/' ∉ name) : segments name = [name] := by
  induction name with
  | nil => rfl
  | cons c r ih =>
    rw [List.mem_cons, not_or] at h
    exact segments_cons (Ne.symm h.1) (ih h.2)

theorem mem_of_mem_segments {path : List Char} {name : Name} (h : name ∈ segments path) {c : Char}
    (hc : c ∈ name) : c ≠ '/' ∧ c ∈ path := by
  induction path generalizing name with
  | nil => simp_all [segments]
  | cons d r ih =>
    by_cases hd : d = '/'
    · rw [segments, if_pos hd] at h
      rcases List.mem_cons.mp h with rfl | h
      · simp at hc
      · exact ⟨(ih h hc).1, List.mem_cons_of_mem _ (ih h hc).2⟩
    · obtain ⟨s, t, hs⟩ := List.exists_cons_of_ne_nil (segments_ne_nil r)
      rw [segments_cons hd hs] at h
      rw [hs] at ih
      rcases List.mem_cons.mp h with rfl | h
      · rcases List.mem_cons.mp hc with rfl | hc
        · exact ⟨hd, List.mem_cons_self⟩
        · exact ⟨(ih List.mem_cons_self hc).1, List.mem_cons_of_mem _ (ih List.mem_cons_self hc).2⟩
      · have := ih (List.mem_cons_of_mem _ h) hc
        exact ⟨this.1, List.mem_cons_of_mem _ this.2⟩

theorem step_cases (place : Place) (segment : Name) :
    step place segment = place ∨ step place segment = place.tail ∨
      (segment ≠ [] ∧ segment ≠ ['.'] ∧ segment ≠ ['.', '.']) ∧
        step place segment = segment :: place := by
  unfold step
  split
  · exact .inl rfl
  · exact .inl rfl
  · exact .inr (.inl rfl)
  · exact .inr (.inr ⟨⟨by assumption, by assumption, by assumption⟩, rfl⟩)

theorem step_of_proper {name : Name} (h : Proper name) (place : Place) :
    step place name = name :: place := by
  unfold step
  split
  · exact absurd rfl h.ne_nil
  · exact absurd rfl h.ne_dot
  · exact absurd rfl h.ne_dots
  · rfl

theorem follow_append_slash (place : Place) (a b : List Char) :
    follow place (a ++ '/' :: b) = follow (follow place a) b := by
  simp [follow, segments_append_slash]

theorem follow_of_not_mem (place : Place) {name : Name} (h : '/' ∉ name) :
    follow place name = step place name := by
  simp [follow, segments_of_not_mem h]

theorem mem_step {place : Place} {segment name : Name} (h : name ∈ step place segment) :
    name ∈ place ∨ name = segment := by
  rcases step_cases place segment with hs | hs | ⟨_, hs⟩ <;> rw [hs] at h
  · exact .inl h
  · exact .inl (List.mem_of_mem_tail h)
  · exact (List.mem_cons.mp h).symm

theorem mem_foldl_step {names : List Name} {place : Place} {name : Name}
    (h : name ∈ names.foldl step place) : name ∈ place ∨ name ∈ names := by
  induction names generalizing place with
  | nil => exact .inl h
  | cons a r ih =>
    rcases ih h with h | h
    · rcases mem_step h with h | rfl
      · exact .inl h
      · exact .inr List.mem_cons_self
    · exact .inr (List.mem_cons_of_mem _ h)

theorem step_proper {place : Place} {segment : Name} (h : ∀ name ∈ place, Proper name)
    (hs : '/' ∉ segment) : ∀ name ∈ step place segment, Proper name := by
  intro name hn
  rcases step_cases place segment with hc | hc | ⟨⟨h1, h2, h3⟩, hc⟩ <;> rw [hc] at hn
  · exact h name hn
  · exact h name (List.mem_of_mem_tail hn)
  · rcases List.mem_cons.mp hn with rfl | hn
    · exact ⟨h1, h2, h3, hs⟩
    · exact h name hn

theorem follow_proper {place : Place} (h : ∀ name ∈ place, Proper name) (path : List Char) :
    ∀ name ∈ follow place path, Proper name := by
  have hs : ∀ s ∈ segments path, '/' ∉ s := fun s hs hc => (mem_of_mem_segments hs hc).1 rfl
  rw [follow]
  generalize segments path = names at hs
  induction names generalizing place with
  | nil => exact h
  | cons a r ih =>
    exact ih (step_proper h (hs a List.mem_cons_self)) fun s h => hs s (List.mem_cons_of_mem _ h)

theorem follow_trail {place : Place} (h : ∀ name ∈ place, Proper name) :
    follow [] (trail place) = place := by
  induction place with
  | nil => rfl
  | cons name place ih =>
    have hn := h name List.mem_cons_self
    rw [trail_cons, follow_append_slash, ih fun n hm => h n (List.mem_cons_of_mem _ hm),
      follow_of_not_mem _ hn.not_slash, step_of_proper hn]

theorem follow_render {place : Place} (h : ∀ name ∈ place, Proper name) :
    follow [] (render place) = place := by
  cases place with
  | nil => rfl
  | cons name place => rw [render_cons, ← trail_cons, follow_trail h]

@[simp] theorem follow_cleanAbsolute (path : List Char) :
    follow [] (cleanAbsolute path) = follow [] path :=
  follow_render (follow_proper (by simp) path)

@[simp] theorem cleanAbsolute_cleanAbsolute (path : List Char) :
    cleanAbsolute (cleanAbsolute path) = cleanAbsolute path := by
  rw [cleanAbsolute, follow_cleanAbsolute, cleanAbsolute]

theorem mem_trail {place : Place} {c : Char} (h : c ∈ trail place) :
    c = '/' ∨ ∃ name ∈ place, c ∈ name := by
  rw [trail, List.mem_flatMap] at h
  obtain ⟨name, hn, hc⟩ := h
  rcases List.mem_cons.mp hc with rfl | hc
  · exact .inl rfl
  · exact .inr ⟨name, List.mem_reverse.mp hn, hc⟩

theorem mem_cleanAbsolute {path : List Char} {c : Char} (h : c ∈ cleanAbsolute path) :
    c = '/' ∨ c ∈ path := by
  have hm : c = '/' ∨ ∃ name ∈ follow [] path, c ∈ name := by
    rw [cleanAbsolute] at h
    generalize follow [] path = place at h
    cases place with
    | nil => exact .inl (List.mem_singleton.mp h)
    | cons name place =>
      rw [render_cons, ← trail_cons] at h
      exact mem_trail h
  rcases hm with rfl | ⟨name, hn, hc⟩
  · exact .inl rfl
  · rcases mem_foldl_step hn with hn | hn
    · simp at hn
    · exact .inr (mem_of_mem_segments hn hc).2

theorem cleanAbsolute_eq_cons (path : List Char) :
    ∃ r, cleanAbsolute path = '/' :: r ∧ r.head? ≠ some '/' := by
  have hp := follow_proper (by simp : ∀ name ∈ ([] : Place), Proper name) path
  rw [cleanAbsolute]
  generalize follow [] path = place at hp
  cases place with
  | nil => exact ⟨[], rfl, by simp⟩
  | cons name place =>
    rw [render_cons, ← trail_cons, trail]
    obtain ⟨first, others, h⟩ := List.exists_cons_of_ne_nil
      (by simp : (name :: place).reverse ≠ [])
    have hf := hp first (List.mem_reverse.mp (h ▸ List.mem_cons_self))
    obtain ⟨c, s, rfl⟩ := List.exists_cons_of_ne_nil hf.ne_nil
    refine ⟨_, by rw [h]; rfl, ?_⟩
    have hc : c ≠ '/' := fun hc => hf.not_slash (hc ▸ List.mem_cons_self)
    simpa using hc

end DocSite.Path
