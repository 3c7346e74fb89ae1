import DocSite.Json.Reader
import Mathlib.Data.List.Basic

/-!
The first document of a stream. A reader that has not failed can always be brought to the end of a
document, so that a text is the beginning of one exactly when the reader has not failed on it. A
stream is followed up to the first place where a document has ended for certain: where a container
is closed, or where what follows a scalar cannot belong to it.
-/

namespace DocSite.Json

def IsContainer : Json → Prop
  | .array _ | .object _ => True
  | _ => False

def Begins (source : List Char) : Prop := ∃ more d, parse? (source ++ more) = some d

/-- The text is the beginning of a document, and none has ended in it: no part of it is a container,
nor a scalar with a blank after it. -/
structure Pending (source : List Char) : Prop where
  begins : Begins source
  open_ : ∀ p rest d, source = p ++ rest → parse? p = some d → ¬d.IsContainer
  unmarked : ∀ p rest d x, source = p ++ x :: rest → parse? p = some d → isSpace x = false

def State.Sound (s : State) : Prop :=
  match s.place with
  | .done _ => s.stack = []
  | .word rest _ => rest ≠ []
  | _ => True

section Sound

theorem sound_deliver (stack : List Frame) (j : Json) : (deliver stack j).Sound := by
  match stack with
  | [] => rfl
  | .array _ :: _ => trivial
  | .object _ _ :: _ => trivial

theorem sound_openWith (stack : List Frame) {place : Place} (h : State.Sound ⟨stack, place⟩) :
    (openWith stack place).Sound := by
  rw [openWith]
  split
  · exact h
  · trivial

theorem sound_startValue (stack : List Frame) (c : Char) : (startValue stack c).Sound := by
  unfold startValue
  split
  · exact sound_openWith stack trivial
  · exact sound_openWith stack trivial
  · trivial
  · exact List.cons_ne_nil _ _
  · exact List.cons_ne_nil _ _
  · exact List.cons_ne_nil _ _
  · trivial
  · trivial
  · split <;> trivial

theorem sound_stepAfter {s : State} (h : s.Sound) (c : Char) : (stepAfter s c).Sound := by
  unfold stepAfter
  split
  · exact h
  · split
    · trivial
    · exact sound_deliver _ _
    · trivial
    · exact sound_deliver _ _
    · trivial

theorem sound_stepText (stack : List Frame) (role : TextRole) (place : TextPlace) (units : List Nat)
    (c : Char) : (stepText stack role place units c).Sound := by
  unfold stepText
  split
  · split
    · cases role with
      | value => exact sound_deliver _ _
      | key => trivial
    · split
      · trivial
      · split <;> trivial
  · split
    · trivial
    · split <;> trivial
  · split
    · trivial
    · split <;> trivial

theorem sound_step {s : State} (h : s.Sound) (c : Char) : (step s c).Sound := by
  obtain ⟨stack, place⟩ := s
  cases place with
  | value =>
    simp only [step]
    split
    · exact h
    · exact sound_startValue _ _
  | firstItem =>
    simp only [step]
    split
    · exact h
    · split
      · exact sound_deliver _ _
      · exact sound_startValue _ _
  | firstKey =>
    simp only [step]
    split
    · exact h
    · split
      · exact sound_deliver _ _
      · split <;> trivial
  | key | colon =>
    simp only [step]
    split
    · exact h
    · split <;> trivial
  | text => exact sound_stepText _ _ _ _ _
  | word rest result =>
    match rest with
    | [] => trivial
    | [d] =>
      simp only [step]
      split
      · exact sound_deliver _ _
      · trivial
    | d :: e :: r =>
      simp only [step]
      split
      · exact List.cons_ne_nil e r
      · trivial
  | number place chars =>
    simp only [step]
    split
    · trivial
    · split
      · exact sound_stepAfter (sound_deliver _ _) c
      · trivial
  | item | field | done => exact sound_stepAfter h c
  | failed => trivial

theorem sound_foldl {s : State} (h : s.Sound) (source : List Char) :
    (source.foldl step s).Sound := by
  induction source generalizing s with
  | nil => exact h
  | cons c r ih => exact ih (sound_step h c)

theorem foldl_failed {s : State} (h : s.place = .failed) (source : List Char) :
    source.foldl step s = s := by
  induction source with
  | nil => rfl
  | cons c r ih =>
    have hstep : step s c = s := by simp only [step, h]
    rw [List.foldl_cons, hstep, ih]

end Sound

section Finish

theorem finish?_eq_some_iff {s : State} {d : Json} : s.finish? = some d ↔
    s = ⟨[], .done d⟩ ∨
      ∃ place chars, s = ⟨[], .number place chars⟩ ∧ place.final ∧ d = numberOf chars := by
  obtain ⟨stack, place⟩ := s
  cases stack with
  | cons => simp [State.finish?]
  | nil =>
    cases place with
    | done j => simp [State.finish?]
    | number place chars =>
      constructor
      · intro h
        simp only [State.finish?] at h
        split at h
        · exact .inr ⟨place, chars, rfl, ‹_›, (Option.some.inj h).symm⟩
        · cases h
      · rintro (h | ⟨_, _, h, hfinal, rfl⟩) <;> cases h
        simp only [State.finish?, hfinal, if_true]
    | _ => simp [State.finish?]

theorem finish?_of_failed {s : State} (h : s.place = .failed) : s.finish? = none := by
  simp [State.finish?, h]

theorem closed?_eq_some_iff {s : State} (h : s.Sound) {d : Json} :
    s.closed? = some d ↔ s = ⟨[], .done d⟩ ∧ d.IsContainer := by
  obtain ⟨stack, place⟩ := s
  cases place with
  | done j =>
    obtain rfl : stack = [] := h
    cases j <;> cases d <;> simp [State.closed?, IsContainer]
  | _ => simp [State.closed?]

theorem stepNumber?_space (place : NumberPlace) {c : Char} (h : isSpace c) :
    stepNumber? place c = none := by
  have hc : c = ' ' ∨ c = '\t' ∨ c = '\n' ∨ c = '\r' := by
    simpa [isSpace, or_assoc] using h
  rcases hc with rfl | rfl | rfl | rfl <;> cases place <;> decide

theorem step_done (d : Json) (c : Char) :
    step ⟨[], .done d⟩ c = if isSpace c then ⟨[], .done d⟩ else .failed := by
  simp only [step, stepAfter]

theorem step_space_of_finish {s : State} {d : Json} (h : s.finish? = some d) {c : Char}
    (hc : isSpace c) : step s c = ⟨[], .done d⟩ := by
  obtain rfl | ⟨place, chars, rfl, hfinal, rfl⟩ := finish?_eq_some_iff.mp h
  · rw [step_done, if_pos hc]
  · simp only [step, stepNumber?_space place hc, hfinal, if_true, stepAfter, hc]
    rfl

theorem step_of_finish {s : State} {d : Json} (h : s.finish? = some d) {c : Char}
    (hc : isSpace c = false) :
    (∃ place chars, step s c = ⟨[], .number place chars⟩) ∨ step s c = .failed := by
  obtain rfl | ⟨place, chars, rfl, hfinal, rfl⟩ := finish?_eq_some_iff.mp h
  · rw [step_done, if_neg (by simp [hc])]
    exact .inr rfl
  · cases hnumber : stepNumber? place c with
    | some place => exact .inl ⟨place, c :: chars, by simp only [step, hnumber]⟩
    | none =>
      refine .inr ?_
      simp only [step, hnumber, hfinal, if_true, stepAfter, hc]
      rfl

theorem foldl_done (d : Json) (source : List Char) : source.foldl step ⟨[], .done d⟩ =
    if source.all isSpace then ⟨[], .done d⟩ else .failed := by
  induction source with
  | nil => rfl
  | cons c r ih =>
    rw [List.foldl_cons, step_done, List.all_cons]
    cases isSpace c with
    | true => exact ih
    | false => exact foldl_failed rfl r

theorem finish?_foldl_done {d d' : Json} {source : List Char}
    (h : (source.foldl step ⟨[], .done d⟩).finish? = some d') :
    d = d' ∧ source.all isSpace := by
  rw [foldl_done] at h
  split at h
  · exact ⟨Option.some.inj h, ‹_›⟩
  · cases h

end Finish

section Follow

variable {s : State} {d d' : Json} {c : Char} {source p rest : List Char}

theorem follow_cons_cases (h : s.Sound) (c : Char) (r : List Char) :
    (∃ d, s.finish? = some d ∧ (step s c = ⟨[], .done d⟩ ∨ step s c = .failed) ∧
      follow s (c :: r) = .complete d) ∨
    (∃ d, step s c = ⟨[], .done d⟩ ∧ d.IsContainer ∧ follow s (c :: r) = .complete d) ∨
    ((step s c).place = .failed ∧ follow s (c :: r) = .broken) ∨
    ((step s c).place ≠ .failed ∧ (step s c).closed? = none ∧
      follow s (c :: r) = follow (step s c) r) := by
  cases hfinish : s.finish? with
  | some d =>
    cases hc : isSpace c with
    | true =>
      have hstep := step_space_of_finish hfinish hc
      refine .inl ⟨d, rfl, .inl hstep, ?_⟩
      simp only [follow, hfinish, hstep]
    | false =>
      obtain ⟨place, chars, hstep⟩ | hstep := step_of_finish hfinish hc
      · refine .inr (.inr (.inr ⟨by rw [hstep]; nofun, by rw [hstep]; rfl, ?_⟩))
        simp only [follow, hfinish, hstep]
      · refine .inl ⟨d, rfl, .inr hstep, ?_⟩
        simp only [follow, hfinish, hstep, State.failed]
  | none =>
    cases hclosed : (step s c).closed? with
    | some d =>
      obtain ⟨hstep, hd⟩ := (closed?_eq_some_iff (sound_step h c)).mp hclosed
      exact .inr (.inl ⟨d, hstep, hd, by simp only [follow, hfinish, hclosed]⟩)
    | none =>
      by_cases hfailed : (step s c).place = .failed
      · exact .inr (.inr (.inl ⟨hfailed, by simp only [follow, hfinish, hclosed, hfailed]⟩))
      · refine .inr (.inr (.inr ⟨hfailed, rfl, ?_⟩))
        simp only [follow, hfinish, hclosed]

theorem foldl_of_unfinished (h : s.Sound) (hs : s.place ≠ .failed) {t : State}
    (hf : follow s source = .unfinished t) : source.foldl step s = t ∧ t.place ≠ .failed := by
  induction source generalizing s with
  | nil =>
    obtain rfl := Progress.unfinished.inj hf
    exact ⟨rfl, hs⟩
  | cons c r ih =>
    obtain ⟨d, -, -, heq⟩ | ⟨d, -, -, heq⟩ | ⟨-, heq⟩ | ⟨hnext, -, heq⟩ := follow_cons_cases h c r
    · rw [heq] at hf
      cases hf
    · rw [heq] at hf
      cases hf
    · rw [heq] at hf
      cases hf
    · exact ih (sound_step h c) hnext (heq ▸ hf)

theorem failed_of_broken (h : s.Sound) (hf : follow s source = .broken) :
    (source.foldl step s).place = .failed := by
  induction source generalizing s with
  | nil => cases hf
  | cons c r ih =>
    obtain ⟨d, -, -, heq⟩ | ⟨d, -, -, heq⟩ | ⟨hfailed, -⟩ | ⟨-, -, heq⟩ := follow_cons_cases h c r
    · rw [heq] at hf
      cases hf
    · rw [heq] at hf
      cases hf
    · rw [List.foldl_cons, foldl_failed hfailed]
      exact hfailed
    · exact ih (sound_step h c) (heq ▸ hf)

theorem exists_of_complete (h : s.Sound) (hf : follow s source = .complete d) :
    ∃ p rest, source = p ++ rest ∧ (p.foldl step s).finish? = some d ∧
      (d.IsContainer ∨ ∃ x more, rest = x :: more ∧
        (step (p.foldl step s) x = ⟨[], .done d⟩ ∨ step (p.foldl step s) x = .failed)) := by
  induction source generalizing s with
  | nil => cases hf
  | cons c r ih =>
    obtain ⟨d', hfinish, hstep, heq⟩ | ⟨d', hstep, hd, heq⟩ | ⟨-, heq⟩ | ⟨-, -, heq⟩ :=
      follow_cons_cases h c r
    · obtain rfl := Progress.complete.inj (heq.symm.trans hf)
      exact ⟨[], c :: r, rfl, hfinish, .inr ⟨c, r, rfl, hstep⟩⟩
    · obtain rfl := Progress.complete.inj (heq.symm.trans hf)
      refine ⟨[c], r, rfl, ?_, .inl hd⟩
      rw [List.foldl_cons, List.foldl_nil, hstep]
      rfl
    · rw [heq] at hf
      cases hf
    · obtain ⟨p, rest, rfl, hfinish, hend⟩ := ih (sound_step h c) (heq ▸ hf)
      exact ⟨c :: p, rest, rfl, hfinish, hend⟩

theorem follow_cons_of_foldl (h : s.Sound) (hp : ((c :: p).foldl step s).finish? = some d)
    (tail : List Char) : follow s (c :: tail) = .complete d ∨
      ((step s c).closed? = none ∧ follow s (c :: tail) = follow (step s c) tail) := by
  rw [List.foldl_cons] at hp
  obtain ⟨d', -, hstep, heq⟩ | ⟨d', hstep, -, heq⟩ | ⟨hfailed, -⟩ | ⟨-, hnext, heq⟩ :=
    follow_cons_cases h c tail
  · rcases hstep with hstep | hstep <;> rw [hstep] at hp
    · obtain ⟨rfl, -⟩ := finish?_foldl_done hp
      exact .inl heq
    · rw [foldl_failed rfl] at hp
      cases hp
  · rw [hstep] at hp
    obtain ⟨rfl, -⟩ := finish?_foldl_done hp
    exact .inl heq
  · rw [foldl_failed hfailed, finish?_of_failed hfailed] at hp
    cases hp
  · exact .inr ⟨hnext, heq⟩

theorem follow_of_ended (h : s.Sound) (hp : (p.foldl step s).finish? = some d)
    (hc : step (p.foldl step s) c = ⟨[], .done d⟩ ∨ step (p.foldl step s) c = .failed) :
    follow s (p ++ c :: rest) = .complete d := by
  induction p generalizing s with
  | nil =>
    have hp : s.finish? = some d := hp
    have hc : step s c = ⟨[], .done d⟩ ∨ step s c = .failed := hc
    rcases hc with hc | hc <;> simp only [List.nil_append, follow, hp, hc, State.failed]
  | cons y r ih =>
    obtain heq | ⟨-, heq⟩ := follow_cons_of_foldl h hp (r ++ c :: rest)
    · exact heq
    · rw [List.cons_append, heq]
      exact ih (sound_step h y) hp hc

theorem follow_of_container (h : s.Sound) (hopen : s.closed? = none)
    (hp : (p.foldl step s).finish? = some d) (hd : d.IsContainer) (rest : List Char) :
    follow s (p ++ rest) = .complete d := by
  induction p generalizing s with
  | nil =>
    obtain rfl | ⟨place, chars, -, -, rfl⟩ := finish?_eq_some_iff.mp hp
    · cases hopen.symm.trans ((closed?_eq_some_iff h).mpr ⟨rfl, hd⟩)
    · exact hd.elim
  | cons y r ih =>
    obtain heq | ⟨hnext, heq⟩ := follow_cons_of_foldl h hp (r ++ rest)
    · exact heq
    · rw [List.cons_append, heq]
      exact ih (sound_step h y) hnext hp

theorem follow_of_finish (h : s.Sound) (hp : (source.foldl step s).finish? = some d) :
    follow s source = .complete d ∨ ∃ t, follow s source = .unfinished t := by
  induction source generalizing s with
  | nil => exact .inr ⟨s, rfl⟩
  | cons y r ih =>
    obtain heq | ⟨-, heq⟩ := follow_cons_of_foldl h hp r
    · exact .inl heq
    · rw [heq]
      exact ih (sound_step h y) hp

end Follow

section Begin

def State.Completes (s : State) : Prop :=
  ∃ (more : List Char) (d : Json), (more.foldl step s).finish? = some d

variable {s : State}

theorem State.Completes.of_foldl (more : List Char) (h : (more.foldl step s).Completes) :
    s.Completes := by
  obtain ⟨rest, d, hd⟩ := h
  exact ⟨more ++ rest, d, by rwa [List.foldl_append]⟩

theorem completes_deliver (stack : List Frame) (j : Json) : (deliver stack j).Completes := by
  induction stack generalizing j with
  | nil => exact ⟨[], j, rfl⟩
  | cons frame r ih =>
    cases frame with
    | array before => exact .of_foldl [']'] (ih (.array (j :: before).reverse))
    | object before key => exact .of_foldl ['}'] (ih (.object ((key, j) :: before).reverse))

theorem completes_value (stack : List Frame) : State.Completes ⟨stack, .value⟩ :=
  .of_foldl ['"', '"'] (completes_deliver stack (.text ""))

theorem completes_colon (stack : List Frame) (before : List (String × Json)) (key : String) :
    State.Completes ⟨stack, .colon before key⟩ :=
  .of_foldl [':'] (completes_value (.object before key :: stack))

theorem completes_text (stack : List Frame) (role : TextRole) (units : List Nat) :
    State.Completes ⟨stack, .text role .plain units⟩ := by
  refine .of_foldl ['"'] ?_
  cases role with
  | value => exact completes_deliver stack _
  | key before => exact completes_colon stack before _

theorem completes_code (stack : List Frame) (role : TextRole) (units : List Nat)
    (left value : Nat) :
    State.Completes ⟨stack, .text role (.code left value) units⟩ := by
  induction left generalizing value with
  | zero => exact .of_foldl ['0'] (completes_text stack role _)
  | succ left ih => exact .of_foldl ['0'] (ih _)

theorem completes_word (stack : List Frame) {rest : List Char} (h : rest ≠ []) (result : Json) :
    State.Completes ⟨stack, .word rest result⟩ := by
  induction rest with
  | nil => exact absurd rfl h
  | cons d r ih =>
    cases r with
    | nil =>
      refine .of_foldl [d] ?_
      simp only [List.foldl_cons, List.foldl_nil, step, if_true]
      exact completes_deliver stack result
    | cons e r =>
      refine .of_foldl [d] ?_
      simp only [List.foldl_cons, List.foldl_nil, step, if_true]
      exact ih (List.cons_ne_nil e r)

theorem completes_final (stack : List Frame) {place : NumberPlace} (h : place.final)
    (chars : List Char) : State.Completes ⟨stack, .number place chars⟩ := by
  cases stack with
  | nil => exact ⟨[], _, finish?_eq_some_iff.mpr (.inr ⟨place, chars, rfl, h, rfl⟩)⟩
  | cons frame r =>
    -- what closes the innermost container ends the number, too
    cases frame with
    | array before =>
      refine .of_foldl [']'] ?_
      cases place <;> first | exact completes_deliver r _ | cases h
    | object before key =>
      refine .of_foldl ['}'] ?_
      cases place <;> first | exact completes_deliver r _ | cases h

theorem completes_number (stack : List Frame) (place : NumberPlace) (chars : List Char) :
    State.Completes ⟨stack, .number place chars⟩ := by
  cases place with
  | sign | point | exponent | exponentSign => exact .of_foldl ['0'] (completes_final stack rfl _)
  | zero | whole | fraction | exponentDigits => exact completes_final stack rfl _

theorem State.Sound.completes (h : s.Sound) (hs : s.place ≠ .failed) : s.Completes := by
  obtain ⟨stack, place⟩ := s
  cases place with
  | value => exact completes_value stack
  | firstItem => exact .of_foldl [']'] (completes_deliver stack _)
  | item before => exact .of_foldl [']'] (completes_deliver stack _)
  | firstKey => exact .of_foldl ['}'] (completes_deliver stack _)
  | key before => exact .of_foldl ['"', '"'] (completes_colon stack before _)
  | colon before key => exact completes_colon stack before key
  | field before => exact .of_foldl ['}'] (completes_deliver stack _)
  | text role place units =>
    cases place with
    | plain => exact completes_text stack role units
    | escape => exact .of_foldl ['n'] (completes_text stack role _)
    | code left value => exact completes_code stack role units left value
  | word rest result => exact completes_word stack h result
  | number place chars => exact completes_number stack place chars
  | done result =>
    obtain rfl : stack = [] := h
    exact ⟨[], result, rfl⟩
  | failed => exact absurd rfl hs

theorem sound_start : State.start.Sound := trivial

/-- A text is the beginning of a document exactly when the reader has not failed on it. -/
theorem begins_iff {source : List Char} :
    Begins source ↔ (source.foldl step .start).place ≠ .failed := by
  constructor
  · rintro ⟨more, d, hd⟩ hfailed
    rw [parse?, List.foldl_append, foldl_failed hfailed, finish?_of_failed hfailed] at hd
    cases hd
  · intro h
    obtain ⟨more, d, hd⟩ := (sound_foldl sound_start source).completes h
    exact ⟨more, d, by rwa [parse?, List.foldl_append]⟩

/-- The first document of a stream is still to come exactly when what was read is the beginning of
one and none has ended in it. -/
theorem unfinished_iff_pending {source : List Char} :
    (∃ s, follow .start source = .unfinished s) ↔ Pending source := by
  constructor
  · rintro ⟨s, hs⟩
    have hne {d : Json} (heq : follow .start source = .complete d) : False := by
      rw [heq] at hs
      cases hs
    obtain ⟨rfl, hlive⟩ := foldl_of_unfinished sound_start nofun hs
    refine ⟨begins_iff.mpr hlive, ?_, ?_⟩
    · rintro p rest d rfl hp hd
      exact hne (follow_of_container sound_start rfl hp hd rest)
    · rintro p rest d x rfl hp
      by_contra hx
      exact hne (follow_of_ended sound_start hp
        (.inl (step_space_of_finish hp (by simpa using hx))))
  · intro h
    cases hf : follow .start source with
    | unfinished s => exact ⟨s, rfl⟩
    | broken => exact absurd (failed_of_broken sound_start hf) (begins_iff.mp h.begins)
    | complete d =>
      obtain ⟨p, rest, rfl, hp, hd | ⟨x, more, rfl, hx⟩⟩ := exists_of_complete sound_start hf
      · exact absurd hd (h.open_ p rest d rfl hp)
      · obtain hdone | hfailed := hx
        · have hx := h.unmarked p more d x rfl hp
          obtain ⟨_, _, hstep⟩ | hstep := step_of_finish hp hx <;> cases hstep.symm.trans hdone
        · refine absurd ?_ (begins_iff.mp h.begins)
          rw [List.foldl_append, List.foldl_cons, hfailed, foldl_failed rfl]
          rfl

end Begin

end DocSite.Json
