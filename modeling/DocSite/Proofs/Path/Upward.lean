import DocSite.Application
import DocSite.Proofs.Path
import Mathlib.Data.List.DropRight
import Mathlib.Data.List.Infix

/-!
Looking for a file upward. On the texts of directories the search goes from one to the directory
that holds it and stops where this is the same directory. From a clean absolute one that is at the
root, after at most as many steps as there are directories above; and what the search finds is the
file of the nearest directory that has it.
-/

namespace DocSite

namespace Path

def dirname (path : List Char) : List Char :=
  cleanAbsolute (path.rdropWhile (· != '/'))

def candidate (dir : List Char) (path : String) : String :=
  String.ofList (cleanAbsolute (dir ++ '/' :: path.toList))

def IsAbove (above dir : List Char) : Prop :=
  cleanAbsolute above = above ∧ (above = dir ∨ above = ['/'] ∨ above ++ ['/'] <+: dir)

/-- A search upward from a directory: after so many steps up it comes to this result. It steps up
for as long as nothing is found and there is another directory above. -/
inductive Ascent (found : String → Bool) (path : String) : List Char → Nat → Option String → Prop
  | here {dir : List Char} :
    found (candidate dir path) = true → Ascent found path dir 0 (some (candidate dir path))
  | top {dir : List Char} :
    found (candidate dir path) = false → dirname dir = dir → Ascent found path dir 0 none
  | up {dir : List Char} {n : Nat} {result : Option String} :
    found (candidate dir path) = false → dirname dir ≠ dir →
      Ascent found path (dirname dir) n result → Ascent found path dir (n + 1) result

/-- The nearest of the directories at or above one from which a path leads to something. -/
structure IsNearest (found : String → Bool) (path : String) (dir above : List Char) : Prop where
  isAbove : IsAbove above dir
  isFound : found (candidate above path) = true
  nearest (other : List Char) :
    IsAbove other dir → found (candidate other path) = true → IsAbove other above

theorem Ascent.unique {found : String → Bool} {path : String} {dir : List Char} {n m : Nat}
    {r s : Option String} (h : Ascent found path dir n r) (h' : Ascent found path dir m s) :
    n = m ∧ r = s := by
  induction h generalizing m s with
  | here hfound =>
    cases h' with
    | here => exact ⟨rfl, rfl⟩
    | top hnot | up hnot => simp [hfound] at hnot
  | top hnot htop =>
    cases h' with
    | here hfound => simp [hnot] at hfound
    | top => exact ⟨rfl, rfl⟩
    | up _ hne => exact absurd htop hne
  | up hnot hne _ ih =>
    cases h' with
    | here hfound => simp [hnot] at hfound
    | top _ htop => exact absurd htop hne
    | up _ _ hrest =>
      obtain ⟨rfl, rfl⟩ := ih hrest
      exact ⟨rfl, rfl⟩

section Place

variable {place : Place}

theorem segments_trail (h : ∀ name ∈ place, Proper name) :
    segments (trail place) = [] :: place.reverse := by
  induction place with
  | nil => rfl
  | cons name place ih =>
    rw [List.forall_mem_cons] at h
    rw [trail_cons, segments_append_slash, ih h.2, segments_of_not_mem h.1.not_slash,
      List.reverse_cons, List.cons_append]

theorem render_injective {place' : Place} (h : ∀ name ∈ place, Proper name)
    (h' : ∀ name ∈ place', Proper name) (heq : render place = render place') : place = place' := by
  rw [← follow_render h, heq, follow_render h']

theorem candidate_render (h : ∀ name ∈ place, Proper name) (path : String) :
    candidate (render place) path = join place path := by
  rw [candidate, cleanAbsolute, follow_append_slash, follow_render h, join]

theorem dirname_render (h : ∀ name ∈ place, Proper name) :
    dirname (render place) = render place.tail := by
  cases place with
  | nil => rfl
  | cons name place =>
    rw [List.forall_mem_cons] at h
    have hlast : (render (name :: place)).rdropWhile (· != '/') = trail place ++ ['/'] := by
      have hname : name.reverse.dropWhile (· != '/') = [] :=
        List.dropWhile_eq_nil_iff.mpr fun c hc => by
          simpa using fun hslash : c = '/' => h.1.not_slash (hslash ▸ List.mem_reverse.mp hc)
      rw [render_cons, List.rdropWhile, List.reverse_append, List.reverse_cons, List.append_assoc,
        List.dropWhile_append, hname]
      simp
    rw [dirname, hlast, cleanAbsolute, follow_append_slash, follow_trail h.2]
    rfl

theorem dirname_render_eq_iff (h : ∀ name ∈ place, Proper name) :
    dirname (render place) = render place ↔ place = [] := by
  rw [dirname_render h]
  constructor
  · intro heq
    have htail := render_injective (fun name hn => h name (List.mem_of_mem_tail hn)) h heq
    cases place with
    | nil => rfl
    | cons name place => exact absurd htail (List.cons_ne_self name place).symm
  · rintro rfl
    rfl

theorem trail_append (inner upper : Place) :
    trail (inner ++ upper) = trail upper ++ trail inner := by
  rw [trail, List.reverse_append, List.flatMap_append]
  rfl

theorem render_eq_trail (hne : place ≠ []) : render place = trail place := by
  obtain ⟨name, upper, rfl⟩ := List.exists_cons_of_ne_nil hne
  rw [render_cons, trail_cons]

theorem isAbove_render_iff (h : ∀ name ∈ place, Proper name) {above : List Char} :
    IsAbove above (render place) ↔ ∃ upper, upper <:+ place ∧ above = render upper := by
  constructor
  · rintro ⟨hclean, rfl | rfl | hinside⟩
    · exact ⟨place, List.suffix_refl place, rfl⟩
    · exact ⟨[], List.nil_suffix, rfl⟩
    · have hproper := follow_proper (by simp : ∀ name ∈ ([] : Place), Proper name) above
      refine ⟨follow [] above, ?_, hclean.symm⟩
      rw [← hclean, cleanAbsolute] at hinside
      generalize follow [] above = upper at hinside hproper
      cases upper with
      | nil => exact List.nil_suffix
      | cons first upper =>
        obtain ⟨rest, hrest⟩ := hinside
        have hne : place ≠ [] := by
          rintro rfl
          have hlength := congrArg List.length hrest
          simp at hlength
          omega
        rw [render_eq_trail (List.cons_ne_nil _ _), render_eq_trail hne, List.append_assoc,
          List.singleton_append] at hrest
        have hsegments := congrArg segments hrest
        rw [segments_append_slash, segments_trail hproper, segments_trail h] at hsegments
        exact List.reverse_prefix.mp ⟨segments rest, (List.cons.inj hsegments).2⟩
  · rintro ⟨upper, ⟨inner, rfl⟩, rfl⟩
    have hproper : ∀ name ∈ upper, Proper name := fun name hn => h name (List.mem_append_right _ hn)
    refine ⟨by rw [cleanAbsolute, follow_render hproper], ?_⟩
    rcases List.eq_nil_or_concat' inner with rfl | ⟨others, next, rfl⟩
    · exact .inl rfl
    · by_cases hroot : upper = []
      · exact .inr (.inl (by rw [hroot, render_nil]))
      · refine .inr (.inr ⟨next ++ trail others, ?_⟩)
        rw [render_eq_trail hroot, render_eq_trail (by simp), trail_append, trail_append]
        simp [trail]

theorem upward_eq_tails (place : Place) : upward place = place.tails := by
  induction place with
  | nil => rfl
  | cons name place ih => rw [upward, ih, List.tails_cons]

theorem find?_upward_eq_some_iff {p : Place → Bool} {upper : Place} :
    (upward place).find? p = some upper ↔ upper <:+ place ∧ p upper = true ∧
      ∀ other, other <:+ place → p other = true → other <:+ upper := by
  induction place with
  | nil =>
    rw [upward, List.find?_singleton]
    constructor
    · intro h
      obtain ⟨hp, heq⟩ := Option.ite_none_right_eq_some.mp h
      obtain rfl := Option.some.inj heq
      exact ⟨List.suffix_refl _, hp, fun other hother _ => hother⟩
    · rintro ⟨hupper, hp, _⟩
      obtain rfl := List.suffix_nil.mp hupper
      exact if_pos hp
  | cons name place ih =>
    rw [upward, List.find?_cons]
    cases hp : p (name :: place) with
    | true =>
      constructor
      · intro h
        obtain rfl := Option.some.inj h
        exact ⟨List.suffix_refl _, hp, fun other hother _ => hother⟩
      · rintro ⟨hupper, _, hnearest⟩
        have hall := hnearest _ (List.suffix_refl _) hp
        exact congrArg some (hall.eq_of_length_le hupper.length_le)
    | false =>
      have hbelow : ∀ other, p other = true → (other <:+ name :: place ↔ other <:+ place) := by
        intro other hother
        rw [List.suffix_cons_iff, or_iff_right]
        rintro rfl
        simp [hp] at hother
      rw [ih]
      constructor
      · rintro ⟨hupper, hfound, hnearest⟩
        exact ⟨(hbelow upper hfound).mpr hupper, hfound, fun other hother hp =>
          hnearest other ((hbelow other hp).mp hother) hp⟩
      · rintro ⟨hupper, hfound, hnearest⟩
        exact ⟨(hbelow upper hfound).mp hupper, hfound, fun other hother hp =>
          hnearest other ((hbelow other hp).mpr hother) hp⟩

theorem find?_upward_eq_none_iff {p : Place → Bool} :
    (upward place).find? p = none ↔ ∀ upper, upper <:+ place → p upper = false := by
  simp [upward_eq_tails]

theorem find?_upward_of_pos {p : Place → Bool} (hp : p place = true) :
    (upward place).find? p = some place :=
  find?_upward_eq_some_iff.mpr ⟨List.suffix_refl _, hp, fun _ hother _ => hother⟩

theorem exists_ascent (h : ∀ name ∈ place, Proper name) (found : String → Bool) (path : String) :
    ∃ n ≤ place.length, Ascent found path (render place) n
      (((upward place).find? fun upper => found (join upper path)).map (join · path)) := by
  induction place with
  | nil =>
    cases hfound : found (join [] path) with
    | true =>
      rw [find?_upward_of_pos hfound, Option.map_some, ← candidate_render h]
      exact ⟨0, le_rfl, .here (by rwa [candidate_render h])⟩
    | false =>
      rw [upward, List.find?_singleton, hfound]
      exact ⟨0, le_rfl, .top (by rwa [candidate_render h]) rfl⟩
  | cons name place ih =>
    cases hfound : found (join (name :: place) path) with
    | true =>
      rw [find?_upward_of_pos hfound, Option.map_some, ← candidate_render h]
      exact ⟨0, Nat.zero_le _, .here (by rwa [candidate_render h])⟩
    | false =>
      obtain ⟨n, hn, hascent⟩ := ih fun other hother => h other (List.mem_cons_of_mem _ hother)
      have hdir : dirname (render (name :: place)) = render place := dirname_render h
      have hne : dirname (render (name :: place)) ≠ render (name :: place) := fun heq =>
        List.cons_ne_nil _ _ ((dirname_render_eq_iff h).mp heq)
      refine ⟨n + 1, Nat.succ_le_succ hn, ?_⟩
      rw [upward, List.find?_cons, hfound]
      exact .up (by rwa [candidate_render h]) hne (hdir ▸ hascent)

theorem isNearest_render_iff (h : ∀ name ∈ place, Proper name) {found : String → Bool}
    {path : String} {upper : Place} (hupper : upper <:+ place) :
    IsNearest found path (render place) (render upper) ↔
      ((upward place).find? fun upper => found (join upper path)) = some upper := by
  have hproper : ∀ {other : Place}, other <:+ place → ∀ name ∈ other, Proper name :=
    fun hother name hn => h name (hother.subset hn)
  rw [find?_upward_eq_some_iff]
  constructor
  · intro hnearest
    have hfound := hnearest.isFound
    rw [candidate_render (hproper hupper)] at hfound
    refine ⟨hupper, hfound, fun other hother hp => ?_⟩
    have habove := hnearest.nearest (render other) ((isAbove_render_iff h).mpr ⟨other, hother, rfl⟩)
      (by rwa [candidate_render (hproper hother)])
    obtain ⟨same, hsame, heq⟩ := (isAbove_render_iff (hproper hupper)).mp habove
    rwa [render_injective (hproper hother) (hproper (hsame.trans hupper)) heq]
  · rintro ⟨_, hfound, hnearest⟩
    refine ⟨(isAbove_render_iff h).mpr ⟨upper, hupper, rfl⟩,
      by rwa [candidate_render (hproper hupper)], fun dir hdir hp => ?_⟩
    obtain ⟨other, hother, rfl⟩ := (isAbove_render_iff h).mp hdir
    rw [candidate_render (hproper hother)] at hp
    exact (isAbove_render_iff (hproper hupper)).mpr ⟨other, hnearest other hother hp, rfl⟩

theorem map_find?_upward_eq_some_iff (h : ∀ name ∈ place, Proper name) {found : String → Bool}
    {path file : String} :
    ((upward place).find? fun upper => found (join upper path)).map (join · path) = some file ↔
      ∃ above, IsNearest found path (render place) above ∧ file = candidate above path := by
  rw [Option.map_eq_some_iff]
  constructor
  · rintro ⟨upper, hfind, rfl⟩
    have hupper := (find?_upward_eq_some_iff.mp hfind).1
    exact ⟨render upper, (isNearest_render_iff h hupper).mpr hfind,
      (candidate_render (fun name hn => h name (hupper.subset hn)) path).symm⟩
  · rintro ⟨above, hnearest, rfl⟩
    obtain ⟨upper, hupper, rfl⟩ := (isAbove_render_iff h).mp hnearest.isAbove
    exact ⟨upper, (isNearest_render_iff h hupper).mp hnearest,
      (candidate_render (fun name hn => h name (hupper.subset hn)) path).symm⟩

theorem map_find?_upward_eq_none_iff (h : ∀ name ∈ place, Proper name) {found : String → Bool}
    {path : String} :
    ((upward place).find? fun upper => found (join upper path)).map (join · path) = none ↔
      ∀ above, IsAbove above (render place) → found (candidate above path) = false := by
  have hcandidate : ∀ upper, upper <:+ place → candidate (render upper) path = join upper path :=
    fun upper hupper => candidate_render (fun name hn => h name (hupper.subset hn)) path
  rw [Option.map_eq_none_iff, find?_upward_eq_none_iff]
  constructor
  · intro hnone above habove
    obtain ⟨upper, hupper, rfl⟩ := (isAbove_render_iff h).mp habove
    rw [hcandidate upper hupper]
    exact hnone upper hupper
  · intro hnone upper hupper
    rw [← hcandidate upper hupper]
    exact hnone _ ((isAbove_render_iff h).mpr ⟨upper, hupper, rfl⟩)

end Place

end Path

theorem locate_eq_find? (files : Files) (here : Path.Place) {path : String}
    (h : Path.isAbsolute path.toList = false) :
    locate files here path =
      match ((Path.upward here).find? fun upper => files.exists? here (Path.join upper path)).map
        (Path.join · path) with
      | some file => .ok file
      | none => .error (.plain ("unable to locate " ++ path)) := by
  rw [locate, h]
  cases (Path.upward here).find? fun upper => files.exists? here (Path.join upper path) <;> rfl

open DocSite.Path in
/-- From a clean absolute directory the search for a relative path comes to an end, and to one
only, with no more steps than the directory has names. It finds the path as seen from the nearest
directory that has it, and nothing if no directory has; the root is where there is no other
directory above. A declaration is located by this search. -/
theorem locate_nearest {dir : List Char} (hdir : cleanAbsolute dir = dir) {path : String}
    (hpath : isAbsolute path.toList = false) :
    (∀ found : String → Bool, ∃ n result, Ascent found path dir n result ∧
      (∀ m s, Ascent found path dir m s → m = n ∧ s = result) ∧ n ≤ (follow [] dir).length ∧
      (∀ file, result = some file ↔
        ∃ above, IsNearest found path dir above ∧ file = candidate above path) ∧
      (result = none ↔ ∀ above, IsAbove above dir → found (candidate above path) = false)) ∧
    (∀ above, IsAbove above dir → (dirname above = above ↔ above = ['/'])) ∧
    ∀ (files : Files) n result,
      Ascent (files.exists? (follow [] dir)) path dir n result →
        locate files (follow [] dir) path =
          match result with
          | some file => .ok file
          | none => .error (.plain ("unable to locate " ++ path)) := by
  have hproper := follow_proper (by simp : ∀ name ∈ ([] : Place), Proper name) dir
  rw [cleanAbsolute] at hdir
  generalize follow [] dir = place at hdir hproper
  subst hdir
  refine ⟨fun found => ?_, fun above habove => ?_, fun files n result hascent => ?_⟩
  · obtain ⟨n, hn, hascent⟩ := exists_ascent hproper found path
    exact ⟨n, _, hascent, fun m s h => h.unique hascent, hn,
      fun file => map_find?_upward_eq_some_iff hproper, map_find?_upward_eq_none_iff hproper⟩
  · obtain ⟨upper, hupper, rfl⟩ := (isAbove_render_iff hproper).mp habove
    have hupperProper : ∀ name ∈ upper, Proper name :=
      fun name hn => hproper name (hupper.subset hn)
    rw [dirname_render_eq_iff hupperProper]
    constructor
    · rintro rfl
      rfl
    · exact render_injective hupperProper (by simp : ∀ name ∈ ([] : Place), Proper name)
  · obtain ⟨m, _, hfind⟩ := exists_ascent hproper (files.exists? place) path
    obtain ⟨_, rfl⟩ := hascent.unique hfind
    exact locate_eq_find? files place hpath

theorem locate_nearest_climbing :
    let dir := "/srv/docs/en".toList
    let files := Files.empty.write [['s', 'i', 't', 'e'], ['s', 'r', 'v']] "title: Docs"
    Path.cleanAbsolute dir = dir ∧ Path.isAbsolute "../site".toList = false ∧
      locate files (Path.follow [] dir) "../site" = .ok "/srv/site" := by
  intro dir files
  have hdir : Path.cleanAbsolute dir = dir := by decide
  have hpath : Path.isAbsolute "../site".toList = false := by decide
  have hfile : Path.candidate (Path.dirname dir) "../site" = "/srv/site" := by decide +kernel
  refine ⟨hdir, hpath, (locate_nearest hdir hpath).2.2 files 1 (some "/srv/site") ?_⟩
  refine .up (by decide +kernel) (by decide +kernel) ?_
  rw [← hfile]
  exact .here (by decide +kernel)

end DocSite
