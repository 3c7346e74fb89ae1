import DocSite.Proofs.Site.Memory
import DocSite.Store
import Mathlib.Data.List.Induction
import Mathlib.Logic.Function.Iterate
import Mathlib.Logic.Relation

/-!
Runs of a store. The store and its callers share memory: what the store keeps lies in a region of
its own, callers get copies, and they write as they like into what they know, also while an update
of theirs is under way. Main statement: whatever they write, the calls are answered as if they had
written nothing, versions count the updates that have succeeded, and all other calls can be left out
of a run without a trace.
-/

namespace DocSite

inductive Call
  | current
  | swap (source : String) (site : Site)
  | update (source : String) (next : Option Snapshot → Except Trouble Site)

namespace Call

def update? : Call → Option (String × (Option Snapshot → Except Trouble Site))
  | .current => none
  | .swap source site => some (source, fun _ => .ok site)
  | .update source next => some (source, next)

structure Done where
  call : Call
  received : Option (Option Snapshot)
  answer : Except Trouble Snapshot

def Done.succeeds (done : Done) : Bool := done.call.update?.isSome && done.answer.isOk

/-- The call is answered as it should be while a store holds a snapshot, or none, after a number of
updates. Its function is given what is in the store; what it gives back goes in under the next
version, with the next reading of the clock. -/
inductive Done.Fits (readings : Nat → Instant) (stored : Option Snapshot) (count : Nat) :
    Done → Prop
  | absent : stored = none → Fits readings stored count ⟨.current, none, .error .notLoaded⟩
  | current {snapshot} : stored = some snapshot →
    Fits readings stored count ⟨.current, none, .ok snapshot⟩
  | refused {call source next trouble} : call.update? = some (source, next) →
    next stored = .error trouble → Fits readings stored count ⟨call, some stored, .error trouble⟩
  | stored {call source next site} : call.update? = some (source, next) → next stored = .ok site →
    Fits readings stored count
      ⟨call, some stored, .ok ⟨site, count + 1, source, readings count⟩⟩

end Call

section Past

variable (past : List Call.Done)

def successes : List Call.Done := past.filter Call.Done.succeeds

def lastStored : Option Snapshot := (successes past).getLast?.bind (·.answer.toOption)

inductive Fitting (readings : Nat → Instant) : List Call.Done → Prop
  | nil : Fitting readings []
  | snoc {past done} : Fitting readings past →
    done.Fits readings (lastStored past) (successes past).length →
    Fitting readings (past ++ [done])

end Past

def Store.call (store : Store) : Call → Except Trouble Snapshot × Store
  | .current => (store.current, store)
  | .swap source site => store.put .replace source site
  | .update source next => store.update source next

def Store.run (store : Store) (calls : List Call) : List (Except Trouble Snapshot) × Store :=
  calls.foldl (fun s call => ((s.1 ++ [(s.2.call call).1]), (s.2.call call).2)) ([], store)

theorem Store.run_concat (store : Store) (calls : List Call) (call : Call) :
    store.run (calls ++ [call]) = ((store.run calls).1 ++ [((store.run calls).2.call call).1],
      ((store.run calls).2.call call).2) := by
  rw [run, List.foldl_append]
  rfl

structure Memory.Snapshot where
  site : Memory.Site
  version : Nat
  source : String
  updatedAt : Instant

namespace Memory.Snapshot

def contents (snapshot : Memory.Snapshot) : DocSite.Snapshot :=
  ⟨snapshot.site.contents, snapshot.version, snapshot.source, snapshot.updatedAt⟩

def copy (region : Region) (snapshot : Memory.Snapshot) : Memory.Snapshot :=
  { snapshot with site := snapshot.site.copy region }

structure Altered (known : Region → Prop) (snapshot later : Memory.Snapshot) : Prop where
  site : snapshot.site.Altered known later.site
  version : later.version = snapshot.version
  source : later.source = snapshot.source
  updatedAt : later.updatedAt = snapshot.updatedAt

end Memory.Snapshot

structure Memory where
  snapshot : Option Memory.Snapshot
  count : Nat
  fresh : Region
  known : List Region

namespace Memory

variable (m : Memory)

def new : Memory := ⟨none, 0, 0, []⟩

def contents : Option DocSite.Snapshot := m.snapshot.map Snapshot.contents

def copy? : Option Snapshot := m.snapshot.map (.copy m.fresh)

def share : Memory := { m with fresh := m.fresh + 1, known := m.fresh :: m.known }

def commit (readings : Nat → Instant) (source : String) (site : Site) : Memory where
  snapshot := some
    { site := site.copy m.fresh
      version := match m.snapshot with
        | some snapshot => snapshot.version + 1
        | none => 1
      source
      updatedAt := readings m.count }
  count := m.count + 1
  fresh := m.fresh + 1
  known := m.known

/-- What callers do by themselves: they use further regions, and write into what they know. -/
inductive Meddle : Memory → Memory → Prop
  | share (m : Memory) : Meddle m m.share
  | write {m : Memory} {snapshot : Option Snapshot} :
    Option.Rel (Snapshot.Altered (· ∈ m.known)) m.snapshot snapshot →
    Meddle m { m with snapshot }

abbrev Meddles : Memory → Memory → Prop := Relation.ReflTransGen Meddle

def answer : Option Snapshot → Except Trouble DocSite.Snapshot
  | some snapshot => .ok snapshot.contents
  | none => .error .notLoaded

/-- One call. An update lends its function a copy of what is in the store, and the function may
meddle before it comes to its end. -/
inductive Step (readings : Nat → Instant) : Memory → Call.Done → Memory → Prop
  | current {m : Memory} : Step readings m ⟨.current, none, answer m.copy?⟩ m.share
  | refuse {m t : Memory} {call : Call} {source : String}
      {next : Option DocSite.Snapshot → Except Trouble DocSite.Site} {trouble : Trouble} :
    call.update? = some (source, next) → Meddles m.share t →
    next (m.copy?.map Snapshot.contents) = .error trouble →
    Step readings m ⟨call, some (m.copy?.map Snapshot.contents), .error trouble⟩ t
  | commit {m t : Memory} {call : Call} {source : String}
      {next : Option DocSite.Snapshot → Except Trouble DocSite.Site} {site : Site} :
    call.update? = some (source, next) → Meddles m.share t →
    next (m.copy?.map Snapshot.contents) = .ok site.contents →
    Step readings m ⟨call, some (m.copy?.map Snapshot.contents),
      answer (t.commit readings source site).copy?⟩ (t.commit readings source site).share

inductive Run (readings : Nat → Instant) : List Call.Done → Memory → Prop
  | new : Run readings [] new
  | meddle {past : List Call.Done} {m t : Memory} : Run readings past m → Meddle m t →
    Run readings past t
  | call {past : List Call.Done} {m t : Memory} {done : Call.Done} : Run readings past m →
    Step readings m done t → Run readings (past ++ [done]) t

end Memory

section Past

variable {past : List Call.Done} {done : Call.Done}

theorem successes_concat :
    successes (past ++ [done]) = successes past ++ if done.succeeds then [done] else [] := by
  rw [successes, successes, List.filter_append, List.filter_singleton, Bool.cond_eq_ite]

theorem successes_successes : successes (successes past) = successes past := by
  rw [successes, successes, List.filter_filter]
  simp

theorem lastStored_concat : lastStored (past ++ [done]) =
    if done.succeeds then done.answer.toOption else lastStored past := by
  rw [lastStored, successes_concat]
  split
  · rw [List.getLast?_concat]
    rfl
  · rw [List.append_nil, lastStored]

theorem length_successes_concat : (successes (past ++ [done])).length =
    if done.succeeds then (successes past).length + 1 else (successes past).length := by
  rw [successes_concat]
  split <;> simp

theorem lastStored_successes : lastStored (successes past) = lastStored past := by
  rw [lastStored, successes_successes, lastStored]

end Past

def versionAfter : Nat → Option Nat
  | 0 => none
  | k + 1 => some (k + 1)

theorem Store.call_eq_update {call : Call} {source : String}
    {next : Option Snapshot → Except Trouble Site} (h : call.update? = some (source, next))
    (store : Store) : store.call call = store.update source next := by
  cases call with
  | current => cases h
  | swap source site =>
    obtain ⟨rfl, rfl⟩ := Prod.mk.inj (Option.some.inj h)
    rfl
  | update source next =>
    obtain ⟨rfl, rfl⟩ := Prod.mk.inj (Option.some.inj h)
    rfl

theorem Store.nextVersion_eq {stored : Option Snapshot} {count : Nat}
    (h : stored.map Snapshot.version = versionAfter count) (clock : Clock) :
    (Store.mk stored clock).nextVersion = count + 1 := by
  cases stored with
  | none =>
    cases count with
    | zero => rfl
    | succ k => cases h
  | some snapshot =>
    cases count with
    | zero => cases h
    | succ k => exact congrArg (· + 1) (Option.some.inj h)

namespace Call.Done.Fits

variable {readings : Nat → Instant} {stored : Option Snapshot} {count : Nat}
  {done other : Call.Done}

theorem received_eq (h : done.Fits readings stored count) :
    done.received = done.call.update?.map fun _ => stored := by
  cases h with
  | absent | current => rfl
  | refused hupdate | stored hupdate => rw [hupdate, Option.map_some]

theorem call_eq (h : done.Fits readings stored count)
    (hversion : stored.map Snapshot.version = versionAfter count) {clock : Clock}
    (hclock : clock.now = readings count) : (Store.mk stored clock).call done.call = (done.answer,
      if done.succeeds then ⟨done.answer.toOption, clock.tick⟩ else ⟨stored, clock⟩) := by
  cases h with
  | absent hnone =>
    subst hnone
    rfl
  | current hsome =>
    subst hsome
    rfl
  | refused hupdate hnext =>
    rw [Store.call_eq_update hupdate, Store.update, hnext, succeeds, hupdate]
    rfl
  | stored hupdate hnext =>
    rw [Store.call_eq_update hupdate, Store.update, hnext, succeeds, hupdate]
    simp only [Store.commit, Store.nextVersion_eq hversion, hclock]
    rfl

theorem unique (h : done.Fits readings stored count) (hother : other.Fits readings stored count)
    (hversion : stored.map Snapshot.version = versionAfter count)
    (hcall : done.call = other.call) : done = other := by
  have hclock : (Clock.mk fun _ => readings count).now = readings count := rfl
  have hreceived : done.received = other.received := by
    rw [h.received_eq, hother.received_eq, hcall]
  have hanswer : done.answer = other.answer := by
    have hdone := h.call_eq hversion hclock
    rw [hcall, hother.call_eq hversion hclock] at hdone
    exact (congrArg Prod.fst hdone).symm
  obtain ⟨_, _, _⟩ := done
  obtain ⟨_, _, _⟩ := other
  exact congr (congrArg₂ Done.mk hcall hreceived) hanswer

theorem version (h : done.Fits readings stored count)
    (hversion : stored.map Snapshot.version = versionAfter count) :
    (if done.succeeds then done.answer.toOption else stored).map Snapshot.version =
      versionAfter (if done.succeeds then count + 1 else count) := by
  cases h with
  | absent | current => exact hversion
  | refused hupdate hnext =>
    rw [succeeds, hupdate]
    exact hversion
  | stored hupdate hnext =>
    rw [succeeds, hupdate]
    rfl

end Call.Done.Fits

namespace Fitting

variable {readings : Nat → Instant} {past other : List Call.Done}

theorem version (h : Fitting readings past) :
    (lastStored past).map Snapshot.version = versionAfter (successes past).length := by
  induction h with
  | nil => rfl
  | snoc _ hfits ih =>
    rw [lastStored_concat, length_successes_concat]
    exact hfits.version ih

theorem without (h : Fitting readings past) : Fitting readings (successes past) := by
  induction h with
  | nil => exact .nil
  | @snoc past done _ hfits ih =>
    rw [successes_concat]
    split
    · refine ih.snoc ?_
      rwa [lastStored_successes, successes_successes]
    · rwa [List.append_nil]

theorem unique (h : Fitting readings past) (hother : Fitting readings other)
    (hcalls : past.map (·.call) = other.map (·.call)) : past = other := by
  induction h generalizing other with
  | nil =>
    cases other with
    | nil => rfl
    | cons => cases hcalls
  | @snoc past done hpast hfits ih =>
    cases hother with
    | nil => simp at hcalls
    | @snoc before last hbefore hlast =>
      rw [List.map_append, List.map_append] at hcalls
      obtain ⟨hinit, hcall⟩ := List.append_inj' hcalls rfl
      obtain rfl := ih hbefore hinit
      rw [hfits.unique hlast hpast.version (List.cons.inj hcall).1]

theorem fits {before after : List Call.Done} {done : Call.Done}
    (h : Fitting readings (before ++ done :: after)) :
    done.Fits readings (lastStored before) (successes before).length := by
  generalize hpast : before ++ done :: after = past at h
  induction h generalizing after with
  | nil => simp at hpast
  | @snoc past last _ hfits ih =>
    obtain rfl | ⟨after, final, rfl⟩ := List.eq_nil_or_concat after
    · obtain ⟨rfl, hlast⟩ := List.append_inj' hpast rfl
      obtain rfl := (List.cons.inj hlast).1
      exact hfits
    · rw [List.concat_eq_append, ← List.cons_append, ← List.append_assoc] at hpast
      exact ih (List.append_inj' hpast rfl).1

theorem run {clock : Clock} (hclock : ∀ k, readings k = (Clock.tick^[k] clock).now)
    (h : Fitting readings past) : (Store.new clock).run (past.map (·.call)) =
      (past.map (·.answer),
        ⟨lastStored past, Clock.tick^[(successes past).length] clock⟩) := by
  induction h with
  | nil => rfl
  | @snoc past done hpast hfits ih =>
    have hcall := hfits.call_eq hpast.version (hclock _).symm
    rw [List.map_append, List.map_append, List.map_singleton, List.map_singleton,
      Store.run_concat, ih, hcall, lastStored_concat, length_successes_concat]
    split
    · rw [Function.iterate_succ_apply']
    · rfl

end Fitting

namespace Memory

variable {readings : Nat → Instant} {m t : Memory} {past : List Call.Done} {done : Call.Done}

theorem Snapshot.contents_copy (region : Region) (snapshot : Snapshot) :
    (snapshot.copy region).contents = snapshot.contents := by
  rw [contents, copy, Site.contents_copy, contents]

theorem contents_copy? (m : Memory) : m.copy?.map Snapshot.contents = m.contents := by
  rw [copy?, contents, Option.map_map]
  exact congrArg (fun f => m.snapshot.map f) (funext (Snapshot.contents_copy m.fresh))

/-- The store has laid out what it holds in a region that no caller knows. -/
structure Private (m : Memory) : Prop where
  known : ∀ region ∈ m.known, region < m.fresh
  snapshot : ∀ snapshot ∈ m.snapshot, ∃ region site,
    snapshot.site = DocSite.Site.layOut region site ∧ region < m.fresh ∧ region ∉ m.known

theorem Private.new : new.Private := ⟨by simp [Memory.new], by simp [Memory.new]⟩

theorem Private.share (h : m.Private) : m.share.Private where
  known := by
    intro region hregion
    obtain rfl | hregion := List.mem_cons.mp hregion
    · exact Nat.lt_succ_self _
    · exact Nat.lt_succ_of_lt (h.known region hregion)
  snapshot := by
    intro snapshot hsnapshot
    obtain ⟨region, site, hsite, hlt, hknown⟩ := h.snapshot snapshot hsnapshot
    refine ⟨region, site, hsite, Nat.lt_succ_of_lt hlt, ?_⟩
    intro hmem
    obtain rfl | hmem := List.mem_cons.mp hmem
    · exact Nat.lt_irrefl _ hlt
    · exact hknown hmem

theorem Private.commit (h : m.Private) (source : String) (site : Site) :
    (m.commit readings source site).Private where
  known region hregion := Nat.lt_succ_of_lt (h.known region hregion)
  snapshot := by
    intro snapshot hsnapshot
    obtain rfl := Option.some.inj hsnapshot
    refine ⟨m.fresh, site.contents, site.copy_eq_layOut m.fresh, Nat.lt_succ_self _, ?_⟩
    exact fun hmem => Nat.lt_irrefl _ (h.known m.fresh hmem)

theorem Snapshot.still {known : Region → Prop} {region : Region} (h : ¬known region)
    {snapshot : Snapshot} {site : DocSite.Site} (hsite : snapshot.site = site.layOut region) :
    Still (Snapshot.Altered known) snapshot := by
  rintro ⟨later, _, _, _⟩ ⟨haltered, rfl, rfl, rfl⟩
  rw [hsite] at haltered
  rw [site.still_layOut h later haltered, ← hsite]

theorem Private.still (h : m.Private) :
    Still (Option.Rel (Snapshot.Altered (· ∈ m.known))) m.snapshot := by
  intro later hlater
  cases hsnapshot : m.snapshot with
  | none =>
    rw [hsnapshot] at hlater
    cases hlater
    rfl
  | some snapshot =>
    rw [hsnapshot] at hlater
    obtain ⟨region, site, hsite, -, hknown⟩ := h.snapshot snapshot hsnapshot
    cases hlater with
    | some haltered => rw [Snapshot.still hknown hsite _ haltered]

theorem Meddle.same (h : Meddle m t) (hm : m.Private) :
    t.Private ∧ t.snapshot = m.snapshot ∧ t.count = m.count := by
  cases h with
  | share => exact ⟨hm.share, rfl, rfl⟩
  | write haltered =>
    rw [hm.still _ haltered]
    exact ⟨hm, rfl, rfl⟩

theorem Meddles.same (h : Meddles m t) (hm : m.Private) :
    t.Private ∧ t.snapshot = m.snapshot ∧ t.count = m.count := by
  induction h with
  | refl => exact ⟨hm, rfl, rfl⟩
  | tail _ hlast ih =>
    obtain ⟨ht, hsnapshot, hcount⟩ := ih
    obtain ⟨hlater, hsame, hlast⟩ := hlast.same ht
    exact ⟨hlater, hsame.trans hsnapshot, hlast.trans hcount⟩

theorem answer_eq (m : Memory) : answer m.copy? = match m.contents with
    | some snapshot => .ok snapshot
    | none => .error .notLoaded := by
  rw [← contents_copy?]
  cases m.copy? <;> rfl

theorem contents_commit (hversion : m.contents.map DocSite.Snapshot.version = versionAfter m.count)
    (source : String) (site : Site) : (m.commit readings source site).contents =
      some ⟨site.contents, m.count + 1, source, readings m.count⟩ := by
  have hnext : (match m.snapshot with
      | some snapshot => snapshot.version + 1
      | none => 1) = m.count + 1 := by
    rw [← Store.nextVersion_eq hversion ⟨readings⟩, Store.nextVersion, contents]
    cases m.snapshot <;> rfl
  rw [contents, commit, Option.map_some, Snapshot.contents, Site.contents_copy, hnext]

theorem Step.fits (h : Step readings m done t) (hm : m.Private)
    (hversion : m.contents.map DocSite.Snapshot.version = versionAfter m.count) :
    t.Private ∧ done.Fits readings m.contents m.count ∧
      t.contents = (if done.succeeds then done.answer.toOption else m.contents) ∧
      t.count = if done.succeeds then m.count + 1 else m.count := by
  cases h with
  | current =>
    refine ⟨hm.share, ?_, rfl, rfl⟩
    rw [answer_eq]
    cases hcontents : m.contents with
    | none => exact .absent rfl
    | some snapshot => exact .current rfl
  | refuse hupdate hmeddles hnext =>
    obtain ⟨ht, hsnapshot, hcount⟩ := hmeddles.same hm.share
    rw [contents_copy?] at hnext ⊢
    refine ⟨ht, .refused hupdate hnext, ?_, ?_⟩
    · rw [Call.Done.succeeds, hupdate, contents, hsnapshot]
      rfl
    · rw [Call.Done.succeeds, hupdate, hcount]
      rfl
  | @commit t call source next site hupdate hmeddles hnext =>
    obtain ⟨ht, hsnapshot, hcount⟩ := hmeddles.same hm.share
    have hcontents : t.contents = m.contents := congrArg (Option.map Snapshot.contents) hsnapshot
    have hstored : (t.commit readings source site).contents =
        some ⟨site.contents, m.count + 1, source, readings m.count⟩ := by
      have hcount : t.count = m.count := hcount
      rw [contents_commit (by rw [hcontents, hcount, hversion]), hcount]
    rw [contents_copy?] at hnext ⊢
    rw [answer_eq, hstored]
    refine ⟨(ht.commit source site).share, .stored hupdate hnext, ?_, ?_⟩
    · rw [Call.Done.succeeds, hupdate]
      exact hstored
    · rw [Call.Done.succeeds, hupdate]
      exact congrArg (· + 1) hcount

theorem Run.fitting (h : Run readings past m) : m.Private ∧ Fitting readings past ∧
    m.contents = lastStored past ∧ m.count = (successes past).length := by
  induction h with
  | new => exact ⟨.new, .nil, rfl, rfl⟩
  | meddle _ hmeddle ih =>
    obtain ⟨hm, hfitting, hstored, hcount⟩ := ih
    obtain ⟨ht, hsnapshot, hsame⟩ := hmeddle.same hm
    refine ⟨ht, hfitting, ?_, hsame.trans hcount⟩
    rw [contents, hsnapshot]
    exact hstored
  | call _ hstep ih =>
    obtain ⟨hm, hfitting, hstored, hcount⟩ := ih
    obtain ⟨ht, hfits, hlater, hlast⟩ := hstep.fits hm (by rw [hstored, hcount, hfitting.version])
    rw [hstored, hcount] at hfits
    refine ⟨ht, hfitting.snoc hfits, ?_, ?_⟩
    · rw [hlater, hstored, lastStored_concat]
    · rw [hlast, hcount, length_successes_concat]

theorem exists_step (readings : Nat → Instant) (m : Memory) (call : Call) :
    ∃ done t, done.call = call ∧ Step readings m done t := by
  cases hupdate : call.update? with
  | none =>
    cases call with
    | current => exact ⟨_, _, rfl, .current⟩
    | swap | update => cases hupdate
  | some update =>
    obtain ⟨source, next⟩ := update
    cases hnext : next (m.copy?.map Snapshot.contents) with
    | error trouble => exact ⟨_, _, rfl, .refuse hupdate .refl hnext⟩
    | ok site =>
      rw [← site.contents_layOut 0] at hnext
      exact ⟨_, _, rfl, .commit hupdate .refl hnext⟩

theorem exists_run (readings : Nat → Instant) (calls : List Call) :
    ∃ past m, Run readings past m ∧ past.map (·.call) = calls := by
  induction calls using List.reverseRecOn with
  | nil => exact ⟨[], new, .new, rfl⟩
  | append_singleton calls call ih =>
    obtain ⟨past, m, hrun, rfl⟩ := ih
    obtain ⟨done, t, rfl, hstep⟩ := exists_step readings m call
    exact ⟨_, t, hrun.call hstep, by simp⟩

/-- What holds after a run. -/
structure RunLaw (readings : Nat → Instant) (past : List Call.Done) (m : Memory) : Prop where
  answers : Fitting readings past
  stored : m.contents = lastStored past
  version : m.contents.map DocSite.Snapshot.version = versionAfter (successes past).length
  count : m.count = (successes past).length
  last : ∀ before done after, past = before ++ done :: after → done.succeeds →
    successes after = [] → ∃ source next site, done.call.update? = some (source, next) ∧
      next (lastStored before) = .ok site ∧ m.contents = some
        ⟨site, (successes past).length, source, readings ((successes past).length - 1)⟩
  unchanged : ∀ done t, Step readings m done t → done.succeeds = false →
    t.contents = m.contents ∧ t.count = m.count
  usable : ∀ call, ∃ done t, done.call = call ∧ Step readings m done t
  without : ∃ t, Run readings (successes past) t ∧ t.contents = m.contents ∧ t.count = m.count
  settled : ∀ other t, Run readings other t →
    other.map (·.call) = (successes past).map (·.call) → other = successes past
  run : ∀ clock : Clock, (∀ k, readings k = (Clock.tick^[k] clock).now) →
    (Store.new clock).run (past.map (·.call)) =
      (past.map (·.answer), ⟨m.contents, Clock.tick^[m.count] clock⟩)

theorem Run.last (h : Run readings past m) {before after : List Call.Done}
    (hpast : past = before ++ done :: after) (hdone : done.succeeds)
    (hafter : successes after = []) : ∃ source next site,
      done.call.update? = some (source, next) ∧ next (lastStored before) = .ok site ∧
        m.contents = some
          ⟨site, (successes past).length, source, readings ((successes past).length - 1)⟩ := by
  obtain ⟨-, hfitting, hstored, -⟩ := h.fitting
  subst hpast
  have hsuccesses : successes (before ++ done :: after) = successes before ++ [done] := by
    rw [successes, List.filter_append, List.filter_cons_of_pos hdone, ← successes, ← successes,
      hafter]
  have hlast : m.contents = done.answer.toOption := by
    rw [hstored, lastStored, hsuccesses, List.getLast?_concat]
    rfl
  rw [hlast, hsuccesses, List.length_append, List.length_singleton, Nat.add_sub_cancel]
  have hfits := hfitting.fits
  cases hfits with
  | absent | current => cases hdone
  | refused hupdate =>
    rw [Call.Done.succeeds, hupdate] at hdone
    cases hdone
  | stored hupdate hnext => exact ⟨_, _, _, hupdate, hnext, rfl⟩

theorem Run.without (h : Run readings past m) :
    ∃ t, Run readings (successes past) t ∧ t.contents = m.contents ∧ t.count = m.count := by
  obtain ⟨-, hfitting, hstored, hcount⟩ := h.fitting
  obtain ⟨other, t, hrun, hcalls⟩ := exists_run readings ((successes past).map (·.call))
  obtain ⟨-, hother, hlater, hlast⟩ := hrun.fitting
  obtain rfl := hother.unique hfitting.without hcalls
  refine ⟨t, hrun, ?_, ?_⟩
  · rw [hlater, hstored, lastStored_successes]
  · rw [hlast, hcount, successes_successes]

/-- Whatever callers write, versions count the updates that have succeeded, every answer tells what
is in the store, and calls that go wrong leave no trace. In 64 bits versions count up to 2 ^ 64 - 1
updates. -/
theorem Run.runLaw (h : Run readings past m) : RunLaw readings past m := by
  obtain ⟨hm, hfitting, hstored, hcount⟩ := h.fitting
  have hversion : m.contents.map DocSite.Snapshot.version = versionAfter m.count := by
    rw [hstored, hcount, hfitting.version]
  refine ⟨hfitting, hstored, hcount ▸ hversion, hcount, fun _ _ _ => h.last, ?_,
    exists_step readings m, h.without, ?_, ?_⟩
  · intro done t hstep hdone
    obtain ⟨-, -, hcontents, hsame⟩ := hstep.fits hm hversion
    rw [hdone] at hcontents hsame
    exact ⟨hcontents, hsame⟩
  · intro other t hother hcalls
    exact hother.fitting.2.1.unique hfitting.without hcalls
  · intro clock hclock
    rw [hfitting.run hclock, hstored, hcount]

theorem Run.runLaw_refused_crashed :
    let clock : Clock := .steady ⟨0⟩ 1
    let readings (k : Nat) : Instant := (Clock.tick^[k] clock).now
    ∃ past m, Run readings past m ∧ RunLaw readings past m ∧
      past.map (·.answer.isOk) = [true, false, false, true, true] ∧
      m.contents.map DocSite.Snapshot.version = some 2 := by
  intro clock readings
  let calls : List Call := [.swap "a" .empty, .update "b" fun _ => .error (.fault (.plain "no")),
    .update "c" fun _ => .error (.crash "out"), .current, .update "d" fun _ => .ok .empty]
  obtain ⟨past, m, hrun, hcalls⟩ := exists_run readings calls
  have hlaw : RunLaw readings past m := hrun.runLaw
  have hstore := hlaw.run clock fun _ => rfl
  rw [hcalls] at hstore
  refine ⟨past, m, hrun, hlaw, ?_, ?_⟩
  · have hanswers : past.map (·.answer) = ((Store.new clock).run calls).1 := by rw [hstore]
    have hok := congrArg (List.map Except.isOk) hanswers
    rw [List.map_map] at hok
    exact hok
  · have hcontents : m.contents = ((Store.new clock).run calls).2.snapshot := by rw [hstore]
    rw [hcontents]
    rfl

end Memory

end DocSite
