import DocSite.Http.Service
import DocSite.Proofs.Finding
import DocSite.Proofs.Http.Endpoint
import Mathlib.Data.List.Induction
import Mathlib.Logic.Function.Iterate

/-!
A run of requests against one service. Seen from outside, the service is a cell that holds one
snapshot: the requests that put or patch the configuration and are answered well fill it, each with
the next version; fetching shows what is in it; all other requests leave it alone, whatever the
limiter decides. One request is described first, and a run of them follows by induction.
-/

namespace DocSite.Http

def configPath : List String := ["api", "site-config"]

def submitMethod : Strategy → String
  | .replace => "PUT"
  | .reconcile => "PATCH"

def Request.Submits (request : Request) (strategy : Strategy) : Prop :=
  request.Names configPath ∧ request.method = submitMethod strategy

def Request.Fetches (request : Request) : Prop :=
  request.Names configPath ∧ (request.method = "GET" ∨ request.method = "HEAD")

def Request.Updates (request : Request) (response : Response) : Prop :=
  (request.Submits .replace ∨ request.Submits .reconcile) ∧ response.status = 200

instance (request : Request) (strategy : Strategy) : Decidable (request.Submits strategy) :=
  inferInstanceAs (Decidable (_ ∧ _))

instance (request : Request) : Decidable request.Fetches :=
  inferInstanceAs (Decidable (_ ∧ _))

instance (request : Request) (response : Response) : Decidable (request.Updates response) :=
  inferInstanceAs (Decidable (_ ∧ _))

def Response.Shows (response : Response) (s : Snapshot) : Prop :=
  ∃ more, response.body = Json.line (.object
    ([("version", .number (toString s.version)), ("source", .text s.source),
      ("updatedAt", .text s.updatedAt.text), ("config", Json.ofFields s.site.toFields)] ++ more))

def Response.ShowsCell (response : Response) : Option Snapshot → Prop
  | none => response.status = 503
  | some s => response.status = 200 ∧ response.Shows s

def Stores (store : Store) (source : String) (site : Site) (response : Response)
    (after : Store) : Prop :=
  let s : Snapshot := ⟨site, store.nextVersion, source, store.clock.now⟩
  after = ⟨some s, store.clock.tick⟩ ∧ response.Shows s

def Request.Declares (request : Request) (limit : Nat) (site : Site) : Prop :=
  ∃ fields report, readDeclaration limit request.body = .ok fields ∧ build fields = .ok report ∧
    report.site = site

/-- What a request does to the store, and how it is answered. -/
structure TurnLaw (limit : Nat) (admitted : Prop) (store : Store) (request : Request)
    (response : Response) (after : Store) : Prop where
  changes : after.snapshot ≠ store.snapshot ↔ request.Updates response
  replaced : request.Submits .replace → response.status = 200 →
    ∃ site, request.Declares limit site ∧ Stores store "api:replace" site response after
  reconciled : request.Submits .reconcile → response.status = 200 →
    ∃ site, request.Declares limit site ∧
      Stores store "api:reconcile"
        (match store.snapshot with
          | none => site
          | some current => current.site.reconcile site) response after
  shown : request.Fetches → admitted → response.ShowsCell store.snapshot
  kept : ¬request.Updates response → after = store

section Turn

def submitEndpoint : Strategy → Endpoint
  | .replace => .replace
  | .reconcile => .reconcile

theorem Request.submits_iff_route {request : Request} {strategy : Strategy} :
    request.Submits strategy ↔ route request = .to (submitEndpoint strategy) := by
  rw [route_eq_to_iff, Request.Submits]
  cases strategy <;> simp [submitEndpoint, submitMethod, Endpoint.segments, Endpoint.methods,
    Endpoint.method, configPath]

theorem Request.fetches_iff_route {request : Request} :
    request.Fetches ↔ route request = .to .current := by
  rw [route_eq_to_iff, Request.Fetches]
  simp [Endpoint.segments, Endpoint.methods, Endpoint.method, configPath]

theorem route_ne_to_of_options {request : Request} (h : request.method = "OPTIONS")
    (e : Endpoint) : route request ≠ .to e := by
  rw [Ne, route_eq_to_iff, h]
  cases e <;> simp [Endpoint.methods, Endpoint.method]

theorem Answer.shows_toResponse (s : Snapshot) (warnings : List Warning) (message : String)
    (before : Headers) : ((Answer.snapshot s warnings message).toResponse before).Shows s := by
  refine ⟨
    (if warnings.isEmpty then [] else [("warnings", .array (Answer.warningItems warnings))]) ++
    (if message.isEmpty then [] else [("message", .text message)]), ?_⟩
  rw [Answer.toResponse, Answer.body]
  simp only [Answer.document?, Answer.count, Answer.siteDocument, List.append_assoc]

variable {limit : Nat} {admitted : Prop} {store : Store} {request : Request} {response : Response}

theorem TurnLaw.of_kept (hkept : ¬request.Updates response)
    (hshown : request.Fetches → admitted → response.ShowsCell store.snapshot) :
    TurnLaw limit admitted store request response store where
  changes := by simp [hkept]
  replaced hs hok := absurd ⟨.inl hs, hok⟩ hkept
  reconciled hs hok := absurd ⟨.inr hs, hok⟩ hkept
  shown := hshown
  kept _ := rfl

theorem Request.not_updates (h : ∀ strategy, route request ≠ .to (submitEndpoint strategy)) :
    ¬request.Updates response := by
  rintro ⟨hs | hs, -⟩ <;> exact h _ (Request.submits_iff_route.mp hs)

theorem route_ne_submitEndpoint {e : Endpoint} (h : route request = .to e)
    (hreplace : e ≠ .replace) (hreconcile : e ≠ .reconcile) (strategy : Strategy) :
    route request ≠ .to (submitEndpoint strategy) := by
  rw [h]
  cases strategy <;> simpa [submitEndpoint]

theorem TurnLaw.of_elsewhere (hsubmit : ∀ strategy, route request ≠ .to (submitEndpoint strategy))
    (hcurrent : route request ≠ .to .current) :
    TurnLaw limit admitted store request response store :=
  .of_kept (Request.not_updates hsubmit) fun hf => absurd (Request.fetches_iff_route.mp hf) hcurrent

theorem TurnLaw.of_refused {strategy : Strategy}
    (hroute : route request = .to (submitEndpoint strategy)) (hstatus : response.status ≠ 200) :
    TurnLaw limit admitted store request response store :=
  .of_kept (fun h => hstatus h.2) fun hf => by
    rw [Request.fetches_iff_route, hroute] at hf
    cases strategy <;> cases hf

theorem commit_snapshot_ne (store : Store) (source : String) (site : Site) :
    (store.commit source site).2.snapshot ≠ store.snapshot := by
  intro h
  cases hs : store.snapshot with
  | none => simp [Store.commit, hs] at h
  | some s =>
    have := congrArg (Option.map Snapshot.version) h
    simp [Store.commit, Store.nextVersion, hs] at this

theorem TurnLaw.of_stored {strategy : Strategy} {site : Site}
    (hroute : route request = .to (submitEndpoint strategy)) (hok : response.status = 200)
    (hdeclares : request.Declares limit site)
    (hshows : response.Shows
      (store.commit (Service.sourceOf strategy) (strategy.apply store.snapshot site)).1) :
    TurnLaw limit admitted store request response
      (store.commit (Service.sourceOf strategy) (strategy.apply store.snapshot site)).2 := by
  have hsubmits : request.Submits strategy := Request.submits_iff_route.mpr hroute
  have hupdates : request.Updates response := ⟨by cases strategy <;> simp [hsubmits], hok⟩
  have hother : ∀ other, request.Submits other → other = strategy := by
    intro other ho
    rw [Request.submits_iff_route, hroute] at ho
    revert ho
    cases other <;> cases strategy <;> decide
  exact {
    changes := iff_of_true (commit_snapshot_ne _ _ _) hupdates
    replaced := fun hs _ => by
      obtain rfl := hother _ hs
      exact ⟨site, hdeclares, rfl, hshows⟩
    reconciled := fun hs _ => by
      obtain rfl := hother _ hs
      refine ⟨site, hdeclares, ?_⟩
      cases hc : store.snapshot with
      | none => exact ⟨rfl, by rwa [hc] at hshows⟩
      | some current => exact ⟨rfl, by rwa [hc] at hshows⟩
    shown := fun hf => by
      rw [Request.fetches_iff_route, hroute] at hf
      cases strategy <;> cases hf
    kept := fun h => absurd hupdates h }

theorem TurnLaw.exists_commit {after : Store}
    (law : TurnLaw limit admitted store request response after) (hu : request.Updates response) :
    ∃ source site, after = (store.commit source site).2 := by
  obtain ⟨hs | hs, hok⟩ := hu
  · obtain ⟨_, -, hstores, -⟩ := law.replaced hs hok
    exact ⟨_, _, hstores⟩
  · obtain ⟨_, -, hstores, -⟩ := law.reconciled hs hok
    exact ⟨_, _, hstores⟩

end Turn

namespace Service

structure Holds (service : Service) (limit : Nat) (store : Store) : Prop where
  repository : service.repository = .working store
  bodyLimit : service.bodyLimit = limit

/-- The work on a request gives an answer, and obeys the law of a turn. -/
def Lawful (limit : Nat) (store : Store) (request : Request) (work : Work) : Prop :=
  ∃ answer log next after, work = (.ok answer, log, next) ∧ Holds next limit after ∧
    ∀ before, TurnLaw limit True store request (answer.toResponse before) after

variable {service : Service} {limit : Nat} {store : Store} {request : Request}

theorem review_eq (service : Service) (body : String) :
    service.review body = match readDeclaration service.bodyLimit body with
      | .error .tooLarge => (.error .tooLarge, [])
      | .error .malformed => (.error .malformed, [])
      | .ok fields =>
        match build fields with
        | .ok report => (.ok report, report.log)
        | .error fault => (.error (.invalid fault), []) := by
  rw [review]
  cases readDeclaration service.bodyLimit body with
  | error fault => cases fault <;> rfl
  | ok fields =>
    cases hbuild : build fields with
    | error fault =>
      simp [buildLogged, hbuild, Except.mapError, refusal, isInvalidConfig_of_build hbuild]
    | ok report => simp [buildLogged, hbuild, Except.mapError]

theorem review_cases (service : Service) (body : String) :
    (∃ answer log, service.review body = (.error answer, log) ∧ answer.status ≠ 200) ∨
    (∃ fields report, readDeclaration service.bodyLimit body = .ok fields ∧
      build fields = .ok report ∧ service.review body = (.ok report, report.log)) := by
  rw [review_eq]
  cases hread : readDeclaration service.bodyLimit body with
  | error fault => cases fault <;> exact .inl ⟨_, _, rfl, by decide⟩
  | ok fields =>
    cases hbuild : build fields with
    | error fault =>
      exact .inl ⟨.invalid fault, [], by simp only [hbuild], by simp [Answer.status]⟩
    | ok report => exact .inr ⟨fields, report, rfl, hbuild, by simp only [hbuild]⟩

theorem lawful_health (h : Holds service limit store) (hroute : route request = .to .health) :
    Lawful limit store request service.health := by
  have law : ∀ response, TurnLaw limit True store request response store := fun _ =>
    .of_elsewhere (route_ne_submitEndpoint hroute nofun nofun) (by rw [hroute]; nofun)
  rw [health, h.repository, Repository.current, Store.current]
  cases store.snapshot with
  | none => exact ⟨_, _, _, store, rfl, ⟨rfl, h.bodyLimit⟩, fun _ => law _⟩
  | some s => exact ⟨_, _, _, store, rfl, ⟨rfl, h.bodyLimit⟩, fun _ => law _⟩

theorem lawful_current (h : Holds service limit store) (hroute : route request = .to .current) :
    Lawful limit store request service.current := by
  have hkept : ∀ response, ¬request.Updates response := fun _ =>
    Request.not_updates (route_ne_submitEndpoint hroute nofun nofun)
  rw [current, h.repository, Repository.current, Store.current]
  cases hs : store.snapshot with
  | none =>
    refine ⟨_, _, _, store, rfl, h, fun before => .of_kept (hkept _) fun _ _ => ?_⟩
    rw [hs]
    rfl
  | some s =>
    refine ⟨_, _, _, store, rfl, h, fun before => .of_kept (hkept _) fun _ _ => ?_⟩
    rw [hs]
    exact ⟨rfl, Answer.shows_toResponse s [] "" before⟩

theorem lawful_validate (h : Holds service limit store) (hroute : route request = .to .validate) :
    Lawful limit store request (service.validate request.body) := by
  have law : ∀ response, TurnLaw limit True store request response store := fun _ =>
    .of_elsewhere (route_ne_submitEndpoint hroute nofun nofun) (by rw [hroute]; nofun)
  rw [validate]
  obtain ⟨answer, log, hreview, -⟩ | ⟨_, report, -, -, hreview⟩ := review_cases service request.body
  · rw [hreview]
    exact ⟨_, _, _, store, rfl, h, fun _ => law _⟩
  · rw [hreview]
    exact ⟨_, _, _, store, rfl, h, fun _ => law _⟩

theorem lawful_submit (h : Holds service limit store) {strategy : Strategy} (id : String)
    (hroute : route request = .to (submitEndpoint strategy)) :
    Lawful limit store request (service.submit strategy id request.body) := by
  rw [submit]
  obtain ⟨answer, log, hreview, hstatus⟩ | ⟨fields, report, hread, hbuild, hreview⟩ :=
    review_cases service request.body
  · rw [hreview]
    exact ⟨_, _, _, store, rfl, h, fun _ => .of_refused hroute hstatus⟩
  · rw [hreview, h.repository]
    rw [h.bodyLimit] at hread
    refine ⟨_, _, _, _, rfl, ⟨rfl, h.bodyLimit⟩, fun before => ?_⟩
    exact .of_stored hroute rfl ⟨fields, report, hread, hbuild, rfl⟩
      (Answer.shows_toResponse _ _ _ before)

theorem lawful_dispatch (h : Holds service limit store) (id : String) (request : Request) :
    Lawful limit store request (service.dispatch id request) := by
  have elsewhere (answer : Answer) (hroute : ∀ e, route request ≠ .to e) :
      Lawful limit store request (.ok answer, [], service) :=
    ⟨answer, [], service, store, rfl, h, fun _ => .of_elsewhere (fun _ => hroute _) (hroute _)⟩
  rw [dispatch]
  split
  · exact elsewhere _ fun e => route_ne_to_of_options ‹_› e
  · split
    · rename_i endpoint hroute
      cases endpoint with
      | health => exact lawful_health h hroute
      | current => exact lawful_current h hroute
      | replace => exact lawful_submit h id hroute
      | reconcile => exact lawful_submit h id hroute
      | validate => exact lawful_validate h hroute
    all_goals
      rename_i hroute
      exact elsewhere _ fun e he => by rw [hroute] at he; cases he

theorem consult_holds (h : Holds service limit store) : Holds service.consult.2 limit store := by
  rw [consult]
  split
  · exact h
  · split <;> exact ⟨h.repository, h.bodyLimit⟩

theorem serve_turn (h : Holds service limit store) (fresh : String) (request : Request) :
    ∃ after, Holds (service.serve fresh request).service limit after ∧
      TurnLaw limit (service.consult.1 = none) store request
        (service.serve fresh request).response after := by
  have hconsult := consult_holds h
  rw [serve]
  rcases hc : service.consult with ⟨_ | wait, admitted⟩ <;> rw [hc] at hconsult
  · obtain ⟨answer, log, next, after, hwork, hnext, hlaw⟩ :=
      lawful_dispatch hconsult (requestId fresh request) request
    simp only [hwork, caught]
    exact ⟨after, hnext, by simpa using hlaw _⟩
  · refine ⟨store, hconsult, .of_kept (fun hu => ?_) fun _ => nofun⟩
    exact absurd hu.2 (by simp [Answer.toResponse, Answer.status])

end Service

structure Turn where
  fresh : String
  request : Request

namespace Service

def after (service : Service) (turns : List Turn) : Service :=
  turns.foldl (fun service t => (service.serve t.fresh t.request).service) service

def updates (service : Service) : List Turn → List Exchange
  | [] => []
  | t :: r =>
    let exchange := service.serve t.fresh t.request
    if t.request.Updates exchange.response then exchange :: exchange.service.updates r
    else exchange.service.updates r

theorem after_append_singleton (service : Service) (past : List Turn) (t : Turn) :
    service.after (past ++ [t]) = ((service.after past).serve t.fresh t.request).service := by
  simp [after]

theorem updates_append_singleton (service : Service) (past : List Turn) (t : Turn) :
    service.updates (past ++ [t]) = service.updates past ++
      if t.request.Updates ((service.after past).serve t.fresh t.request).response then
        [(service.after past).serve t.fresh t.request] else [] := by
  induction past generalizing service with
  | nil => rfl
  | cons s r ih =>
    simp only [List.cons_append, updates, ih]
    split <;> rfl

/-- The store as the updates so far have left it: with what the latest one stored, with their number
as its version, and with a clock that was read once for each. -/
structure Reflects (clock : Clock) (updates : List Exchange) (store : Store) : Prop where
  latest : store.snapshot = none ∧ updates = [] ∨ ∃ exchange s, store.snapshot = some s ∧
    updates.getLast? = some exchange ∧ exchange.service.repository = .working store ∧
    s.version = updates.length
  clock : store.clock = Clock.tick^[updates.length] clock

theorem Reflects.nextVersion {clock : Clock} {updates : List Exchange} {store : Store}
    (h : Reflects clock updates store) : store.nextVersion = updates.length + 1 := by
  obtain ⟨hs, rfl⟩ | ⟨_, s, hs, -, -, hv⟩ := h.latest
  · simp [Store.nextVersion, hs]
  · simp [Store.nextVersion, hs, hv]

theorem Reflects.step {clock : Clock} {updates : List Exchange} {store after : Store} {limit : Nat}
    {admitted : Prop} {request : Request} {exchange : Exchange}
    (h : Reflects clock updates store)
    (hafter : exchange.service.repository = .working after)
    (law : TurnLaw limit admitted store request exchange.response after) :
    Reflects clock
      (updates ++ if request.Updates exchange.response then [exchange] else []) after := by
  split
  · rename_i hu
    obtain ⟨source, site, rfl⟩ := law.exists_commit hu
    refine ⟨.inr ⟨exchange, _, rfl, by simp, hafter, ?_⟩, ?_⟩
    · rw [List.length_append, List.length_singleton, ← h.nextVersion]
    · rw [List.length_append, List.length_singleton, Function.iterate_succ_apply', ← h.clock]
      rfl
  · rename_i hu
    rw [law.kept hu, List.append_nil]
    exact h

theorem after_reflects {service : Service} {clock : Clock}
    (h : service.repository = .working (.new clock)) (past : List Turn) :
    ∃ store, Holds (service.after past) service.bodyLimit store ∧
      Reflects clock (service.updates past) store := by
  induction past using List.reverseRecOn with
  | nil => exact ⟨.new clock, ⟨h, rfl⟩, .inl ⟨rfl, rfl⟩, rfl⟩
  | append_singleton past t ih =>
    obtain ⟨store, hholds, hreflects⟩ := ih
    obtain ⟨after, hafter, law⟩ := serve_turn hholds t.fresh t.request
    rw [after_append_singleton, updates_append_singleton]
    exact ⟨after, hafter, hreflects.step hafter.repository law⟩

/-- A service that starts with an empty store is, in every run, a cell of one snapshot: a turn
changes the cell exactly when it puts or patches the configuration and is answered well, the
snapshots get the versions 1, 2, 3 and so on, and whoever fetches the configuration and is let
through by the limiter sees what the latest of these turns stored. In 64 bits the versions are these
for fewer than 2 ^ 64 updates. -/
theorem run_refines_cell (service : Service) (clock : Clock)
    (h : service.repository = .working (.new clock)) (past : List Turn) (t : Turn) :
    let exchange := (service.after past).serve t.fresh t.request
    ∃ store after, (service.after past).repository = .working store ∧
      exchange.service.repository = .working after ∧
      Reflects clock (service.updates past) store ∧
      TurnLaw service.bodyLimit ((service.after past).consult.1 = none) store t.request
        exchange.response after ∧
      (t.request.Fetches → (service.after past).consult.1 = none →
        (exchange.response.status = 503 ↔ service.updates past = [])) := by
  obtain ⟨store, hholds, hreflects⟩ := after_reflects h past
  obtain ⟨after, hafter, law⟩ := serve_turn hholds t.fresh t.request
  refine ⟨store, after, hholds.repository, hafter.repository, hreflects, law, fun hf hc => ?_⟩
  have hshown := law.shown hf hc
  obtain ⟨hs, hu⟩ | ⟨_, s, hs, hu, -⟩ := hreflects.latest <;> rw [hs] at hshown
  · exact iff_of_true hshown hu
  · refine iff_of_false (by simp [hshown.1]) fun hnil => ?_
    simp [hnil] at hu

theorem run_refines_cell_put_get :
    let clock : Clock := .steady ⟨0⟩ 1
    let service : Service := { repository := .working (.new clock), clock }
    let put : Turn :=
      ⟨"a", "PUT", "/api/site-config", [], "\x7b\"title\":\"T\",\"description\":\"D\"\x7d"⟩
    let get : Turn := ⟨"b", "GET", "/api/site-config", [], ""⟩
    service.repository = .working (.new clock) ∧ get.request.Fetches ∧
      ∃ s : Snapshot, s.version = 1 ∧
        ((service.after [put]).serve get.fresh get.request).response.ShowsCell (some s) := by
  intro clock service put get
  have hupdates : (service.updates [put]).length = 1 := by decide +kernel
  have hfetches : get.request.Fetches := by decide +kernel
  have hadmitted : (service.after [put]).consult.1 = none := by decide +kernel
  obtain ⟨store, _, -, -, hreflects, law, -⟩ := run_refines_cell service _ rfl [put] get
  refine ⟨rfl, hfetches, ?_⟩
  obtain ⟨-, hnil⟩ | ⟨_, s, hs, -, -, hversion⟩ := hreflects.latest
  · simp [hnil] at hupdates
  · exact ⟨s, hversion.trans hupdates, hs ▸ law.shown hfetches hadmitted⟩

end Service

end DocSite.Http
