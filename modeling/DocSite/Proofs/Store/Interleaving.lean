import DocSite.Application
import Mathlib.Data.List.Induction
import Mathlib.Logic.Function.Basic
import Mathlib.Logic.Relation

/-!
Clients that share one store. A client first builds the site it wants, while the store is none of
its business; then it takes the lock, looks at the current snapshot, derives the next site, stamps
it with a version and a time, writes it and lets go of the lock. Others fetch the snapshot under a
lock that they may share. The steps of any number of clients mix in any way that the lock allows,
and files change in between. Whatever the mixture, the updates are as if made one after the other.
-/

namespace DocSite

inductive Origin
  | body (limit : Nat) (text : String)
  | file (here : Path.Place) (path : String) (parse : Parser := Format.parse?)

namespace Origin

def fields? (files : Files) : Origin → Option Fields
  | .body limit text => (Http.readDeclaration limit text).toOption
  | .file here path parse => (loadDeclaration files here path parse).toOption

def site? (files : Files) (origin : Origin) : Option Site :=
  match origin.fields? files with
  | none => none
  | some fields =>
    match build fields with
    | .ok report => some report.site
    | .error _ => none

def source (strategy : Strategy) : Origin → String
  | .body .. => Http.Service.sourceOf strategy
  | .file _ path _ => "file:" ++ path

end Origin

inductive Job
  | update (strategy : Strategy) (origin : Origin)
  | fetch

inductive Phase
  | idle
  | refused
  | built (site : Site)
  | locked (site : Site)
  | seen (site : Site) (current : Option Snapshot)
  | derived (site next : Site)
  | stamped (site : Site) (next : Snapshot)
  | written (site : Site) (next : Snapshot)
  | updated (site : Site) (next : Snapshot)
  | reading
  | read (current : Option Snapshot)
  | fetched (current : Option Snapshot)

namespace Phase

def Writes : Phase → Prop
  | .locked _ | .seen .. | .derived .. | .stamped .. | .written .. => True
  | _ => False

def Reads : Phase → Prop
  | .reading | .read _ => True
  | _ => False

def site? : Phase → Option Site
  | .built site | .locked site | .seen site _ | .derived site _ | .stamped site _ | .written site _
  | .updated site _ => some site
  | _ => none

def stored? : Phase → Option Snapshot
  | .written _ next | .updated _ next => some next
  | _ => none

end Phase

structure System (ι : Type) where
  store : Store
  files : Files
  phase : ι → Phase

variable {ι : Type}

namespace System

variable [DecidableEq ι]

def enter (s : System ι) (i : ι) (p : Phase) (store : Store) : System ι :=
  ⟨store, s.files, Function.update s.phase i p⟩

@[simp] theorem phase_enter_self (s : System ι) (i : ι) (p : Phase) (store : Store) :
    (s.enter i p store).phase i = p :=
  Function.update_self ..

theorem phase_enter_of_ne (s : System ι) {i j : ι} (p : Phase) (store : Store) (h : j ≠ i) :
    (s.enter i p store).phase j = s.phase j :=
  Function.update_of_ne h ..

theorem enter_enter (s : System ι) (i : ι) (p q : Phase) (before after : Store) :
    (s.enter i p before).enter i q after = s.enter i q after := by
  simp [enter]

def Free (s : System ι) : Prop := ∀ j, ¬(s.phase j).Writes ∧ ¬(s.phase j).Reads

/-- One step of one client, or a change of the files. The lock is taken by one client alone, and a
share of it only while no client has it whole. -/
inductive Step (jobs : ι → Job) : System ι → System ι → Prop
  | edit {s} (files : Files) : Step jobs s { s with files }
  | refuse {s i strategy origin} : jobs i = .update strategy origin → s.phase i = .idle →
    origin.site? s.files = none → Step jobs s (s.enter i .refused s.store)
  | build {s i strategy origin site} : jobs i = .update strategy origin → s.phase i = .idle →
    origin.site? s.files = some site → Step jobs s (s.enter i (.built site) s.store)
  | lock {s i site} : s.phase i = .built site → s.Free →
    Step jobs s (s.enter i (.locked site) s.store)
  | look {s i site} : s.phase i = .locked site →
    Step jobs s (s.enter i (.seen site s.store.snapshot) s.store)
  | derive {s i strategy origin site current} : jobs i = .update strategy origin →
    s.phase i = .seen site current →
    Step jobs s (s.enter i (.derived site (strategy.apply current site)) s.store)
  | stamp {s i strategy origin site next} : jobs i = .update strategy origin →
    s.phase i = .derived site next →
    Step jobs s (s.enter i
      (.stamped site ⟨next, s.store.nextVersion, origin.source strategy, s.store.clock.now⟩)
      { s.store with clock := s.store.clock.tick })
  | write {s i site next} : s.phase i = .stamped site next →
    Step jobs s (s.enter i (.written site next) { s.store with snapshot := some next })
  | unlock {s i site next} : s.phase i = .written site next →
    Step jobs s (s.enter i (.updated site next) s.store)
  | share {s i} : jobs i = .fetch → s.phase i = .idle → (∀ j, ¬(s.phase j).Writes) →
    Step jobs s (s.enter i .reading s.store)
  | read {s i} : s.phase i = .reading → Step jobs s (s.enter i (.read s.store.snapshot) s.store)
  | unshare {s i current} : s.phase i = .read current →
    Step jobs s (s.enter i (.fetched current) s.store)

abbrev Reaches (jobs : ι → Job) : System ι → System ι → Prop := Relation.ReflTransGen (Step jobs)

end System

def Job.apply (store : Store) (site : Site) : Job → Store
  | .update strategy origin => (store.put strategy (origin.source strategy) site).2
  | .fetch => store

def serial (jobs : ι → Job) (store : Store) (done : List (ι × Site)) : Store :=
  done.foldl (fun store d => (jobs d.1).apply store d.2) store

section Serial

variable {jobs : ι → Job} {start : Store} {done : List (ι × Site)}

theorem serial_concat (d : ι × Site) :
    serial jobs start (done ++ [d]) = (jobs d.1).apply (serial jobs start done) d.2 := by
  simp only [serial, List.foldl_append, List.foldl_cons, List.foldl_nil]

theorem nextVersion_serial (h : ∀ d ∈ done, ∃ strategy origin, jobs d.1 = .update strategy origin) :
    (serial jobs start done).nextVersion = start.nextVersion + done.length := by
  induction done using List.reverseRecOn with
  | nil => rfl
  | append_singleton r d ih =>
    obtain ⟨strategy, origin, hjob⟩ := h d (by simp)
    have hr := ih fun e he => h e (by simp [he])
    rw [serial_concat, hjob, List.length_append, List.length_singleton, ← Nat.add_assoc, ← hr]
    rfl

end Serial

section Invariant

variable (jobs : ι → Job) (start : Store)

def Committed (done : List (ι × Site)) (i : ι) (site : Site) (next : Snapshot) (k : Nat) : Prop :=
  done[k]? = some (i, site) ∧ ∃ strategy origin, jobs i = .update strategy origin ∧
    next = ((serial jobs start (done.take k)).commit (origin.source strategy)
      (strategy.apply (serial jobs start (done.take k)).snapshot site)).1

/-- What holds of a client in a phase, given the updates that are done and the store as it is. Only
the client that has the lock knows the store. -/
def Phase.Fits (store : Store) (done : List (ι × Site)) (i : ι) : Phase → Prop
  | .idle | .refused | .built _ | .reading => i ∉ done.map (·.1)
  | .locked _ => i ∉ done.map (·.1) ∧ store = serial jobs start done
  | .seen _ current => i ∉ done.map (·.1) ∧ store = serial jobs start done ∧
    current = (serial jobs start done).snapshot
  | .derived site next => i ∉ done.map (·.1) ∧ store = serial jobs start done ∧
    ∃ strategy origin, jobs i = .update strategy origin ∧
      next = strategy.apply (serial jobs start done).snapshot site
  | .stamped site next => i ∉ done.map (·.1) ∧
    ∃ strategy origin, jobs i = .update strategy origin ∧
      store = ⟨(serial jobs start done).snapshot, (serial jobs start done).clock.tick⟩ ∧
      next = ((serial jobs start done).commit (origin.source strategy)
        (strategy.apply (serial jobs start done).snapshot site)).1
  | .written site next =>
    store = serial jobs start done ∧ ∃ k, Committed jobs start done i site next k
  | .updated site next => ∃ k, Committed jobs start done i site next k
  | .read current | .fetched current => i ∉ done.map (·.1) ∧
    ∃ k ≤ done.length, current = (serial jobs start (done.take k)).snapshot

/-- What holds in every state: at most one client has the lock, the store is what the updates that
are done have made of it, and every client is where it should be. -/
structure System.Invariant (s : System ι) (done : List (ι × Site)) : Prop where
  distinct : (done.map (·.1)).Nodup
  exclusive : ∀ i j, (s.phase i).Writes → (s.phase j).Writes → i = j
  snapshot : s.store.snapshot = (serial jobs start done).snapshot
  quiet : (∀ i, ¬(s.phase i).Writes) → s.store = serial jobs start done
  fits : ∀ i, (s.phase i).Fits jobs start s.store done i

end Invariant

section Fits

variable {jobs : ι → Job} {start store : Store} {done : List (ι × Site)} {i : ι} {p : Phase}

theorem Committed.append {site : Site} {next : Snapshot} {k : Nat}
    (h : Committed jobs start done i site next k) (d : ι × Site) :
    Committed jobs start (done ++ [d]) i site next k := by
  obtain ⟨hk, hnext⟩ := h
  have hlt : k < done.length := (List.getElem?_eq_some_iff.mp hk).1
  constructor
  · rw [List.getElem?_append_left hlt, hk]
  · rwa [List.take_append_of_le_length (Nat.le_of_lt hlt)]

theorem Phase.Fits.append (h : p.Fits jobs start store done i) (hp : ¬p.Writes) {d : ι × Site}
    (hd : d.1 ≠ i) (after : Store) : p.Fits jobs start after (done ++ [d]) i := by
  have hnot : i ∉ done.map (·.1) → i ∉ (done ++ [d]).map (·.1) := by
    simp only [List.map_append, List.map_cons, List.map_nil, List.mem_append, List.mem_singleton]
    rintro hi (hmem | rfl)
    · exact hi hmem
    · exact hd rfl
  cases p with
  | idle | refused | built | reading => exact hnot h
  | locked | seen | derived | stamped | written => exact absurd trivial hp
  | updated site next =>
    obtain ⟨k, hk⟩ := h
    exact ⟨k, hk.append d⟩
  | read current | fetched current =>
    obtain ⟨hi, k, hk, hcurrent⟩ := h
    refine ⟨hnot hi, k, ?_, ?_⟩
    · exact Nat.le_trans hk (by simp)
    · rwa [List.take_append_of_le_length hk]

theorem Phase.Fits.of_store (h : p.Fits jobs start store done i) (hp : ¬p.Writes) (after : Store) :
    p.Fits jobs start after done i := by
  cases p with
  | locked | seen | derived | stamped | written => exact absurd trivial hp
  | _ => exact h

theorem System.invariant_of_idle {s : System ι} (hidle : ∀ i, s.phase i = .idle) :
    s.Invariant jobs s.store [] := by
  refine ⟨List.nodup_nil, ?_, rfl, fun _ => rfl, ?_⟩
  · intro i j hi
    rw [hidle] at hi
    exact hi.elim
  · intro i
    rw [hidle]
    exact List.not_mem_nil

end Fits

namespace System.Invariant

variable [DecidableEq ι] {jobs : ι → Job} {start : Store} {done : List (ι × Site)} {s : System ι}
  {i : ι} {p : Phase}

theorem enter (h : s.Invariant jobs start done) (hfits : p.Fits jobs start s.store done i)
    (htake : p.Writes → (s.phase i).Writes ∨ ∀ j, ¬(s.phase j).Writes)
    (hleave : (s.phase i).Writes → ¬p.Writes → s.store = serial jobs start done) :
    (s.enter i p s.store).Invariant jobs start done where
  distinct := h.distinct
  exclusive := by
    have hone : ∀ j, ((s.enter i p s.store).phase j).Writes → p.Writes → j = i := by
      intro j hj hp
      by_contra hne
      rw [phase_enter_of_ne s p s.store hne] at hj
      obtain hi | hfree := htake hp
      · exact hne (h.exclusive j i hj hi)
      · exact hfree j hj
    intro j k hj hk
    by_cases hji : j = i
    · subst hji
      rw [phase_enter_self] at hj
      exact (hone k hk hj).symm
    · by_cases hki : k = i
      · subst hki
        rw [phase_enter_self] at hk
        exact hone j hj hk
      · rw [phase_enter_of_ne s p s.store hji] at hj
        rw [phase_enter_of_ne s p s.store hki] at hk
        exact h.exclusive j k hj hk
  snapshot := h.snapshot
  quiet := by
    intro hquiet
    have hp : ¬p.Writes := by simpa using hquiet i
    by_cases hi : (s.phase i).Writes
    · exact hleave hi hp
    · refine h.quiet fun j => ?_
      by_cases hji : j = i
      · rwa [hji]
      · rw [← phase_enter_of_ne s p s.store hji]
        exact hquiet j
  fits := by
    intro j
    by_cases hji : j = i
    · subst hji
      rwa [phase_enter_self]
    · rw [phase_enter_of_ne s p s.store hji]
      exact h.fits j

theorem alter (h : s.Invariant jobs start done) (hi : (s.phase i).Writes) (hp : p.Writes)
    {after : Store} {done' : List (ι × Site)} (hdistinct : (done'.map (·.1)).Nodup)
    (hsnapshot : after.snapshot = (serial jobs start done').snapshot)
    (hfits : p.Fits jobs start after done' i)
    (hothers : ∀ j (q : Phase), j ≠ i → ¬q.Writes → q.Fits jobs start s.store done j →
      q.Fits jobs start after done' j) :
    (s.enter i p after).Invariant jobs start done' where
  distinct := hdistinct
  exclusive := by
    have hone : ∀ j, ((s.enter i p after).phase j).Writes → j = i := by
      intro j hj
      by_contra hne
      rw [phase_enter_of_ne s p after hne] at hj
      exact hne (h.exclusive j i hj hi)
    intro j k hj hk
    exact (hone j hj).trans (hone k hk).symm
  snapshot := hsnapshot
  quiet := by
    intro hquiet
    exact absurd (by simpa using hp) (hquiet i)
  fits := by
    intro j
    by_cases hji : j = i
    · subst hji
      rwa [phase_enter_self]
    · have hfree : ¬(s.phase j).Writes := fun hj => hji (h.exclusive j i hj hi)
      rw [phase_enter_of_ne s p after hji]
      exact hothers j _ hji hfree (h.fits j)

theorem stamp (h : s.Invariant jobs start done) {strategy : Strategy} {origin : Origin}
    {site next : Site} (hjob : jobs i = .update strategy origin)
    (hphase : s.phase i = .derived site next) :
    (s.enter i
      (.stamped site ⟨next, s.store.nextVersion, origin.source strategy, s.store.clock.now⟩)
      { s.store with clock := s.store.clock.tick }).Invariant jobs start done := by
  have hfits := h.fits i
  rw [hphase] at hfits
  obtain ⟨hi, hstore, strategy', origin', hjob', hnext⟩ := hfits
  obtain ⟨rfl, rfl⟩ := Job.update.inj (hjob.symm.trans hjob')
  have hwrites : (s.phase i).Writes := by
    rw [hphase]
    trivial
  refine h.alter hwrites (by trivial) h.distinct h.snapshot ?_
    fun j q _ hq hfits => hfits.of_store hq _
  refine ⟨hi, strategy, origin, hjob, ?_, ?_⟩
  · rw [hstore]
  · rw [hnext, hstore]
    rfl

theorem write (h : s.Invariant jobs start done) {site : Site} {next : Snapshot}
    (hphase : s.phase i = .stamped site next) :
    (s.enter i (.written site next) { s.store with snapshot := some next }).Invariant jobs start
      (done ++ [(i, site)]) := by
  have hfits := h.fits i
  rw [hphase] at hfits
  obtain ⟨hi, strategy, origin, hjob, hstore, hnext⟩ := hfits
  have hserial : serial jobs start (done ++ [(i, site)]) =
      ⟨some next, (serial jobs start done).clock.tick⟩ := by
    rw [serial_concat, hjob, hnext]
    rfl
  have hwrites : (s.phase i).Writes := by
    rw [hphase]
    trivial
  refine h.alter hwrites (by trivial) ?_ ?_ ?_ ?_
  · rw [List.map_append, List.map_singleton, List.nodup_append]
    refine ⟨h.distinct, List.pairwise_singleton .., ?_⟩
    rintro a ha b hb rfl
    have : a = i := List.mem_singleton.mp hb
    exact hi (this ▸ ha)
  · rw [hserial]
  · refine ⟨?_, done.length, ?_, strategy, origin, hjob, ?_⟩
    · rw [hserial, hstore]
    · simp
    · rw [List.take_left, hnext]
  · intro j q hj hq hfits
    exact hfits.append hq (Ne.symm hj) _

theorem step_or_write (h : s.Invariant jobs start done) {t : System ι} (hstep : Step jobs s t) :
    t.Invariant jobs start done ∨ ∃ i site next, s.phase i = .stamped site next ∧
      t = s.enter i (.written site next) { s.store with snapshot := some next } := by
  -- only a write completes an update, so every other step keeps the updates that are done
  cases hstep with
  | edit files => exact .inl ⟨h.distinct, h.exclusive, h.snapshot, h.quiet, h.fits⟩
  | @refuse i _ _ hjob hphase hsite =>
    have hi := h.fits i
    rw [hphase] at hi
    exact .inl (h.enter hi nofun (by rw [hphase]; nofun))
  | @build i _ _ site hjob hphase hsite =>
    have hi := h.fits i
    rw [hphase] at hi
    exact .inl (h.enter hi nofun (by rw [hphase]; nofun))
  | @lock i site hphase hfree =>
    have hi := h.fits i
    rw [hphase] at hi
    have hquiet : ∀ j, ¬(s.phase j).Writes := fun j => (hfree j).1
    exact .inl (h.enter ⟨hi, h.quiet hquiet⟩ (fun _ => .inr hquiet) fun hw => absurd hw (hquiet i))
  | @look i site hphase =>
    have hi := h.fits i
    rw [hphase] at hi
    exact .inl (h.enter ⟨hi.1, hi.2, h.snapshot⟩ (fun _ => .inl (by rw [hphase]; trivial))
      fun _ hp => absurd trivial hp)
  | @derive i strategy origin site current hjob hphase =>
    have hi := h.fits i
    rw [hphase] at hi
    exact .inl (h.enter ⟨hi.1, hi.2.1, strategy, origin, hjob, by rw [hi.2.2]⟩
      (fun _ => .inl (by rw [hphase]; trivial)) fun _ hp => absurd trivial hp)
  | stamp hjob hphase => exact .inl (h.stamp hjob hphase)
  | write hphase => exact .inr ⟨_, _, _, hphase, rfl⟩
  | @unlock i site next hphase =>
    have hi := h.fits i
    rw [hphase] at hi
    exact .inl (h.enter hi.2 nofun fun _ _ => hi.1)
  | @share i hjob hphase hfree =>
    have hi := h.fits i
    rw [hphase] at hi
    exact .inl (h.enter hi nofun (by rw [hphase]; nofun))
  | @read i hphase =>
    have hi := h.fits i
    rw [hphase] at hi
    refine .inl (h.enter ⟨hi, done.length, Nat.le_refl _, ?_⟩ nofun (by rw [hphase]; nofun))
    rw [List.take_length, h.snapshot]
  | @unshare i current hphase =>
    have hi := h.fits i
    rw [hphase] at hi
    exact .inl (h.enter hi nofun (by rw [hphase]; nofun))

theorem step (h : s.Invariant jobs start done) {t : System ι} (hstep : Step jobs s t) :
    ∃ more, t.Invariant jobs start (done ++ more) := by
  obtain ht | ⟨i, site, next, hphase, rfl⟩ := h.step_or_write hstep
  · exact ⟨[], by rwa [List.append_nil]⟩
  · exact ⟨_, h.write hphase⟩

end System.Invariant

section Run

variable [DecidableEq ι] {jobs : ι → Job} {start s t : System ι}

theorem System.site?_enter {i : ι} {p : Phase} (h : p.site? = (s.phase i).site?) (store : Store)
    (j : ι) : ((s.enter i p store).phase j).site? = (s.phase j).site? := by
  by_cases hji : j = i
  · rw [hji, phase_enter_self, h]
  · rw [phase_enter_of_ne s p store hji]

theorem System.Step.site? (hstep : Step jobs s t) {j : ι} {site : Site}
    (h : (t.phase j).site? = some site) :
    (s.phase j).site? = some site ∨
      ∃ strategy origin, jobs j = .update strategy origin ∧ origin.site? s.files = some site := by
  have keep {i : ι} {p : Phase} {store : Store} (hp : p.site? = (s.phase i).site?)
      (h : ((s.enter i p store).phase j).site? = some site) : (s.phase j).site? = some site := by
    rwa [site?_enter hp] at h
  cases hstep with
  | edit files => exact .inl h
  | @build i strategy origin built hjob hphase hsite =>
    by_cases hji : j = i
    · subst hji
      rw [phase_enter_self] at h
      obtain rfl := Option.some.inj h
      exact .inr ⟨strategy, origin, hjob, hsite⟩
    · rw [phase_enter_of_ne s _ _ hji] at h
      exact .inl h
  | refuse _ hphase _ => exact .inl (keep (by rw [hphase]; rfl) h)
  | lock hphase _ => exact .inl (keep (by rw [hphase]; rfl) h)
  | look hphase => exact .inl (keep (by rw [hphase]; rfl) h)
  | derive _ hphase => exact .inl (keep (by rw [hphase]; rfl) h)
  | stamp _ hphase => exact .inl (keep (by rw [hphase]; rfl) h)
  | write hphase => exact .inl (keep (by rw [hphase]; rfl) h)
  | unlock hphase => exact .inl (keep (by rw [hphase]; rfl) h)
  | share _ hphase _ => exact .inl (keep (by rw [hphase]; rfl) h)
  | read hphase => exact .inl (keep (by rw [hphase]; rfl) h)
  | unshare hphase => exact .inl (keep (by rw [hphase]; rfl) h)

def System.Built (jobs : ι → Job) (start s : System ι) (i : ι) (site : Site) : Prop :=
  ∃ strategy origin moment, jobs i = .update strategy origin ∧ Reaches jobs start moment ∧
    Reaches jobs moment s ∧ origin.site? moment.files = some site

theorem System.Reaches.built (hidle : ∀ i, start.phase i = .idle) (h : Reaches jobs start s) {i : ι}
    {site : Site} (hsite : (s.phase i).site? = some site) : Built jobs start s i site := by
  induction h with
  | refl =>
    rw [hidle] at hsite
    cases hsite
  | @tail s t hs hstep ih =>
    obtain hold | ⟨strategy, origin, hjob, hnew⟩ := hstep.site? hsite
    · obtain ⟨strategy, origin, moment, hjob, hbefore, hafter, hbuilt⟩ := ih hold
      exact ⟨strategy, origin, moment, hjob, hbefore, hafter.tail hstep, hbuilt⟩
    · exact ⟨strategy, origin, s, hjob, hs, .single hstep, hnew⟩

end Run

section Alone

variable [DecidableEq ι] {jobs : ι → Job} {s : System ι} {i : ι} {strategy : Strategy}
  {origin : Origin}

theorem System.Free.enter (h : s.Free) {p : Phase} (hw : ¬p.Writes) (hr : ¬p.Reads)
    (store : Store) : (s.enter i p store).Free := by
  intro j
  by_cases hji : j = i
  · subst hji
    rw [phase_enter_self]
    exact ⟨hw, hr⟩
  · rw [phase_enter_of_ne s p store hji]
    exact h j

def Origin.settle (origin : Origin) (strategy : Strategy) (files : Files) (store : Store) : Store :=
  match origin.site? files with
  | some site => (store.put strategy (origin.source strategy) site).2
  | none => store

theorem Http.Service.submit_settles {service : Http.Service} {store : Store}
    (h : service.repository = .working store) (files : Files) (id body : String) :
    (service.submit strategy id body).2.2.repository =
      .working ((Origin.body service.bodyLimit body).settle strategy files store) := by
  rw [submit, review, Origin.settle, Origin.site?, Origin.fields?]
  cases hread : readDeclaration service.bodyLimit body with
  | error fault => cases fault <;> exact h
  | ok fields =>
    cases hbuild : build fields with
    | error fault =>
      simp only [buildLogged, Except.toOption, Except.mapError, hbuild]
      exact h
    | ok report =>
      simp only [buildLogged, Except.toOption, Except.mapError, hbuild, h]
      rfl

theorem Application.load_settles {app : Application} {store : Store}
    (h : app.service.repository = .working store) (files : Files) :
    (app.load files strategy).2.2.service.repository =
      .working ((Origin.file app.here app.path app.parse).settle strategy files store) := by
  rw [load, Origin.settle, Origin.site?, Origin.fields?]
  cases hload : loadDeclaration files app.here app.path app.parse with
  | error fault => exact h
  | ok fields =>
    cases hbuild : build fields with
    | error fault =>
      simp only [buildLogged, Except.toOption, hbuild]
      exact h
    | ok report =>
      simp only [buildLogged, Except.toOption, hbuild, h]
      rfl

end Alone

section Main

variable {jobs : ι → Job} {s : System ι} {done : List (ι × Site)}

theorem System.Invariant.stored {start : Store} (h : s.Invariant jobs start done) {i : ι}
    (hi : i ∈ done.map (·.1)) : ∃ site next k, (s.phase i).site? = some site ∧
      (s.phase i).stored? = some next ∧ Committed jobs start done i site next k := by
  have hfits := h.fits i
  cases hphase : s.phase i with
  | written site next =>
    rw [hphase] at hfits
    obtain ⟨-, k, hk⟩ := hfits
    exact ⟨site, next, k, rfl, rfl, hk⟩
  | updated site next =>
    rw [hphase] at hfits
    obtain ⟨k, hk⟩ := hfits
    exact ⟨site, next, k, rfl, rfl, hk⟩
  | idle | refused | reading | built =>
    rw [hphase] at hfits
    exact absurd hi hfits
  | locked | seen | derived | stamped | read | fetched =>
    rw [hphase] at hfits
    exact absurd hi hfits.1

theorem System.Invariant.mem_of_stored {start : Store} (h : s.Invariant jobs start done) {i : ι}
    {next : Snapshot} (hi : (s.phase i).stored? = some next) : i ∈ done.map (·.1) := by
  have hfits := h.fits i
  cases hphase : s.phase i with
  | written site next =>
    rw [hphase] at hfits
    obtain ⟨-, k, hk, -⟩ := hfits
    exact List.mem_map.mpr ⟨_, List.mem_of_getElem? hk, rfl⟩
  | updated site next =>
    rw [hphase] at hfits
    obtain ⟨k, hk, -⟩ := hfits
    exact List.mem_map.mpr ⟨_, List.mem_of_getElem? hk, rfl⟩
  | _ =>
    rw [hphase] at hi
    cases hi

theorem System.Invariant.committed {start : Store} (h : s.Invariant jobs start done) {k : Nat}
    {i : ι} {site : Site} (hk : done[k]? = some (i, site)) : ∃ next,
      (s.phase i).site? = some site ∧ (s.phase i).stored? = some next ∧
        Committed jobs start done i site next k := by
  obtain ⟨site', next, k', hsite, hstored, hcommitted⟩ :=
    h.stored (List.mem_map.mpr ⟨_, List.mem_of_getElem? hk, rfl⟩)
  -- a client is in the list once
  have hkeys : (done.map (·.1))[k]? = (done.map (·.1))[k']? := by
    rw [List.getElem?_map, List.getElem?_map, hk, hcommitted.1]
    rfl
  obtain rfl : k = k' := by
    have hlt : k < (done.map (·.1)).length := by
      simpa using (List.getElem?_eq_some_iff.mp hk).1
    exact (List.getElem?_inj hlt h.distinct).mp hkeys
  obtain ⟨-, rfl⟩ := Prod.ext_iff.mp (Option.some.inj (hk.symm.trans hcommitted.1))
  exact ⟨next, hsite, hstored, hcommitted⟩

end Main

end DocSite
