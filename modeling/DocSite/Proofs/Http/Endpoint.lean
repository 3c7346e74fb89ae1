import DocSite.Http.Endpoint
import DocSite.Proofs.Path

namespace DocSite

namespace Path

theorem flatMap_segments (path : List Char) :
    (segments path).flatMap ('/' :: ·) = '/' :: path := by
  induction path with
  | nil => rfl
  | cons c r ih =>
    by_cases hc : c = '/'
    · simp [segments, hc, ih]
    · obtain ⟨s, t, hs⟩ := List.exists_cons_of_ne_nil (segments_ne_nil r)
      rw [hs, List.flatMap_cons, List.cons_append, List.cons.injEq] at ih
      rw [segments_cons hc hs, List.flatMap_cons, List.cons_append, List.cons_append, ih.2]

theorem foldl_step_of_proper {names : List Name} (h : ∀ name ∈ names, Proper name)
    (place : Place) : names.foldl step place = names.reverse ++ place := by
  induction names generalizing place with
  | nil => rfl
  | cons name r ih =>
    rw [List.forall_mem_cons] at h
    rw [List.foldl_cons, step_of_proper h.1, ih h.2]
    simp

theorem cleanAbsolute_of_proper {path : List Char} (h : ∀ name ∈ segments path, Proper name) :
    cleanAbsolute ('/' :: path) = '/' :: path := by
  have hfollow : follow [] ('/' :: path) = (segments path).reverse := by
    rw [follow, segments, if_pos rfl, List.foldl_cons, step, foldl_step_of_proper h,
      List.append_nil]
  have hne : (segments path).reverse ≠ [] := by simpa using segments_ne_nil path
  rw [cleanAbsolute, hfollow]
  obtain ⟨name, place, hplace⟩ := List.exists_cons_of_ne_nil hne
  rw [hplace, render_cons, ← trail_cons, ← hplace, trail, List.reverse_reverse, flatMap_segments]

end Path

namespace Http

structure Request.Names (request : Request) (segments : List String) : Prop where
  rooted : (Target.ofText request.target).path.head? = some '/'
  segments : (Target.ofText request.target).segments = segments

instance (request : Request) (segments : List String) : Decidable (request.Names segments) :=
  decidable_of_iff (_ ∧ _) ⟨fun h => ⟨h.1, h.2⟩, fun h => ⟨h.rooted, h.segments⟩⟩

theorem unescape_nil : unescape [] = "" := by decide +kernel

theorem unescape_dot : unescape ['.'] = "." := by decide +kernel

theorem unescape_dots : unescape ['.', '.'] = ".." := by decide +kernel

def IsPlainName (s : String) : Prop := s ≠ "" ∧ s ≠ "." ∧ s ≠ ".."

instance (s : String) : Decidable (IsPlainName s) := inferInstanceAs (Decidable (_ ∧ _))

theorem proper_of_isPlainName_unescape {name : Path.Name} (h : IsPlainName (unescape name))
    (hslash : '/' ∉ name) : Path.Proper name where
  ne_nil := by
    rintro rfl
    exact h.1 unescape_nil
  ne_dot := by
    rintro rfl
    exact h.2.1 unescape_dot
  ne_dots := by
    rintro rfl
    exact h.2.2 unescape_dots
  not_slash := hslash

theorem Target.cleanPath_eq_path {target : Target} (hroot : target.path.head? = some '/')
    (h : ∀ s ∈ target.segments, IsPlainName s) : target.cleanPath = target.path := by
  obtain ⟨path, hpath⟩ : ∃ path, target.path = '/' :: path := by
    cases hp : target.path with
    | nil => simp [hp] at hroot
    | cons c r => exact ⟨r, by simpa [hp] using hroot⟩
  have hproper : ∀ name ∈ Path.segments path, Path.Proper name := by
    intro name hn
    refine proper_of_isPlainName_unescape (h _ ?_) fun hc => (Path.mem_of_mem_segments hn hc).1 rfl
    rw [Target.segments, hpath, Path.segments, if_pos rfl]
    exact List.mem_map_of_mem hn
  have hclean : Path.cleanAbsolute target.path = target.path := by
    rw [hpath, Path.cleanAbsolute_of_proper hproper]
  -- a slash at the end would leave an empty name behind it
  have hlast : target.path.getLast? ≠ some '/' := by
    rw [hpath]
    intro hl
    obtain ⟨init, hinit⟩ := List.getLast?_eq_some_iff.mp hl
    cases init with
    | nil =>
      obtain rfl : path = [] := by simpa using hinit
      exact (hproper [] (by simp [Path.segments])).ne_nil rfl
    | cons c r =>
      obtain rfl : path = r ++ ['/'] := by simpa using (List.cons.inj hinit).2
      refine (hproper [] ?_).ne_nil rfl
      rw [Path.segments_append_slash]
      simp [Path.segments]
  rw [Target.cleanPath, hclean, if_neg (fun h => hlast h.1)]

theorem Target.head?_cleanPath (target : Target) : target.cleanPath.head? = some '/' := by
  obtain ⟨r, hr, _⟩ := Path.cleanAbsolute_eq_cons target.path
  simp only [Target.cleanPath, hr]
  split <;> simp

theorem Endpoint.isPlainName_segments (e : Endpoint) : ∀ s ∈ e.segments, IsPlainName s := by
  cases e <;> decide

theorem Endpoint.ne_connect_of_mem_methods {e : Endpoint} {method : String}
    (h : method ∈ e.methods) : method ≠ "CONNECT" := by
  rintro rfl
  revert h
  cases e <;> decide

theorem Endpoint.find?_eq_some_iff {e : Endpoint} {segments : List String} {method : String} :
    Endpoint.all.find? (fun e => e.segments == segments && e.methods.contains method) = some e ↔
      segments = e.segments ∧ method ∈ e.methods := by
  constructor
  · intro h
    have := List.find?_some h
    simp only [Bool.and_eq_true, beq_iff_eq, List.contains_iff_mem] at this
    exact ⟨this.1.symm, this.2⟩
  · rintro ⟨rfl, hm⟩
    have hone : ∀ m ∈ e.methods, Endpoint.all.find? (fun f => f.segments == e.segments &&
        f.methods.contains m) = some e := by
      cases e <;> decide
    exact hone method hm

/-- A request leads to an endpoint exactly when it names the endpoint's path and has one of its
methods. -/
theorem route_eq_to_iff {request : Request} {e : Endpoint} :
    route request = .to e ↔ request.Names e.segments ∧ request.method ∈ e.methods := by
  constructor
  · intro h
    rw [route] at h
    split at h
    · cases h
    · split at h
      · cases h
      · rename_i hmoved
        dsimp only at h
        split at h
        · rename_i hfind
          obtain rfl := Route.to.inj h
          obtain ⟨hsegments, hmethod⟩ := Endpoint.find?_eq_some_iff.mp hfind
          have hne := Endpoint.ne_connect_of_mem_methods hmethod
          have hclean : (Target.ofText request.target).cleanPath =
              (Target.ofText request.target).path := by
            simpa [movedTo?, hne] using hmoved
          exact ⟨⟨hclean ▸ Target.head?_cleanPath _, hsegments⟩, hmethod⟩
        · split at h <;> cases h
  · rintro ⟨hnames, hmethod⟩
    have htarget : request.target ≠ "*" := by
      intro heq
      have hroot := hnames.rooted
      rw [heq] at hroot
      revert hroot
      decide +kernel
    have hclean := Target.cleanPath_eq_path hnames.rooted
      (hnames.segments ▸ e.isPlainName_segments)
    have hmoved : movedTo? request = none := by
      simp [movedTo?, hclean]
    rw [route, if_neg htarget, hmoved]
    simp only [Endpoint.find?_eq_some_iff.mpr ⟨hnames.segments, hmethod⟩]

end Http

end DocSite
