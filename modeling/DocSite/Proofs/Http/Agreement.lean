import DocSite.Proofs.Http.Run

namespace DocSite.Http

def Request.Checks (request : Request) : Prop :=
  request.Names Endpoint.validate.segments ∧ request.method = "POST"

instance (request : Request) : Decidable request.Checks := inferInstanceAs (Decidable (_ ∧ _))

def Response.ListsFindings (response : Response) : Prop :=
  ∃ details finding more, response.body = Json.line (.object
    [("error", .text "Invalid site configuration"), ("details", .text details),
      ("suggestion", .text "Fix the listed fields and submit the whole declaration again"),
      ("findings", .array (Answer.findingItems (finding :: more)))])

def Response.ShowsValid (response : Response) (report : Report) : Prop :=
  response.body = Json.line (.object
    [("valid", .bool true), ("config", Json.ofFields report.site.toFields),
      ("warnings", .array (Answer.warningItems report.warnings))])

def Response.ShowsStored (response : Response) (s : Snapshot) (warnings : List Warning)
    (message : String) : Prop :=
  response.body = Json.line (.object
    ([("version", .number (toString s.version)), ("source", .text s.source),
      ("updatedAt", .text s.updatedAt.text), ("config", Json.ofFields s.site.toFields)] ++
      (if warnings = [] then [] else [("warnings", .array (Answer.warningItems warnings))]) ++
      [("message", .text message)]))

/-- One declaration was checked, put in place of what a store holds, and laid over it. -/
structure Agreement (store : Store) (checked replaced reconciled : Exchange) : Prop where
  replaced_status : replaced.response.status = checked.response.status
  reconciled_status : reconciled.response.status = checked.response.status
  status : checked.response.status ∈ [200, 400, 413, 422, 429]
  refused : checked.response.status ≠ 200 →
    replaced.response.body = checked.response.body ∧
      reconciled.response.body = checked.response.body
  listed : checked.response.status = 422 → checked.response.ListsFindings
  accepted : checked.response.status = 200 → ∃ (report : Report) (put patch : Snapshot),
    checked.response.ShowsValid report ∧
      replaced.response.ShowsStored put report.warnings "Site configuration replaced" ∧
      reconciled.response.ShowsStored patch report.warnings "Site configuration reconciled" ∧
      replaced.service.repository = .working ⟨some put, store.clock.tick⟩ ∧
      reconciled.service.repository = .working ⟨some patch, store.clock.tick⟩ ∧
      put.site = report.site ∧ put.source = "api:replace" ∧
      (store.snapshot = none → put.version = 1 ∧ patch = { put with source := "api:reconcile" })

/-- The answer refuses a declaration: for its size, for what it is, with findings, or unread. -/
inductive Answer.Refuses : Answer → Prop
  | tooLarge : Refuses .tooLarge
  | malformed : Refuses .malformed
  | invalid {fault : Fault} : fault.findings ≠ [] → Refuses (.invalid fault)
  | throttled (wait : Nat) : Refuses (.throttled wait)

namespace Answer

variable {answer : Answer}

theorem Refuses.status (h : answer.Refuses) : answer.status ∈ [400, 413, 422, 429] := by
  cases h <;> simp [Answer.status]

theorem Refuses.listsFindings (h : answer.Refuses) (hstatus : answer.status = 422)
    (before : Headers) : (answer.toResponse before).ListsFindings := by
  cases h with
  | tooLarge | malformed | throttled => cases hstatus
  | @invalid fault hfindings =>
    obtain ⟨finding, more, heq⟩ := List.exists_cons_of_ne_nil hfindings
    refine ⟨fault.message, finding, more, ?_⟩
    simp [toResponse, body, document?, heq]

theorem showsValid_toResponse (report : Report) (before : Headers) :
    ((Answer.valid report).toResponse before).ShowsValid report := rfl

theorem showsStored_toResponse (s : Snapshot) (warnings : List Warning) {message : String}
    (hmessage : message.isEmpty = false) (before : Headers) :
    ((Answer.snapshot s warnings message).toResponse before).ShowsStored s warnings message := by
  simp [Response.ShowsStored, toResponse, body, document?, count, siteDocument, hmessage]

end Answer

namespace Service

variable {service admitted : Service} {limit : Nat} {store : Store}

theorem review_refuses (service : Service) (body : String) :
    (∃ answer log, answer.Refuses ∧ service.review body = (.error answer, log)) ∨
      ∃ report log, service.review body = (.ok report, log) := by
  rw [review_eq]
  cases readDeclaration service.bodyLimit body with
  | error fault =>
    cases fault with
    | tooLarge => exact .inl ⟨_, _, .tooLarge, rfl⟩
    | malformed => exact .inl ⟨_, _, .malformed, rfl⟩
  | ok fields =>
    cases hbuild : build fields with
    | error fault =>
      exact .inl ⟨.invalid fault, [], .invalid (findings_ne_nil_of_build hbuild),
        by simp only [hbuild]⟩
    | ok report => exact .inr ⟨report, report.log, by simp only [hbuild]⟩

theorem response_of_throttled {wait : Nat} (hconsult : service.consult = (some wait, admitted))
    (fresh : String) (request : Request) : ∃ before,
      (service.serve fresh request).response = (Answer.throttled wait).toResponse before := by
  rw [serve, hconsult]
  exact ⟨_, rfl⟩

theorem exchange_of_work {request : Request} {e : Endpoint} {answer : Answer}
    {log : List Log.Entry} {after : Service} (hconsult : service.consult = (none, admitted))
    (hroute : route request = .to e) {fresh : String}
    (hwork : admitted.work (requestId fresh request) request.body e = (.ok answer, log, after)) :
    ∃ before, (service.serve fresh request).response = answer.toResponse before ∧
      (service.serve fresh request).service = after := by
  have hdispatch :
      admitted.dispatch (requestId fresh request) request = (.ok answer, log, after) := by
    rw [dispatch, if_neg fun ho => route_ne_to_of_options ho e hroute, hroute]
    exact hwork
  simp only [serve, hconsult, hdispatch, caught]
  exact ⟨_, rfl, trivial⟩

theorem exchange_of_checks {request : Request} {answer : Answer} {log : List Log.Entry}
    {after : Service} (hconsult : service.consult = (none, admitted)) (h : request.Checks)
    (fresh : String) (hwork : admitted.validate request.body = (.ok answer, log, after)) :
    ∃ before, (service.serve fresh request).response = answer.toResponse before ∧
      (service.serve fresh request).service = after :=
  exchange_of_work hconsult (route_eq_to_iff.mpr ⟨h.1, by rw [h.2]; decide⟩) hwork

theorem exchange_of_submits {request : Request} {strategy : Strategy} {answer : Answer}
    {log : List Log.Entry} {after : Service} (hconsult : service.consult = (none, admitted))
    (h : request.Submits strategy) (fresh : String)
    (hwork : admitted.submit strategy (requestId fresh request) request.body =
      (.ok answer, log, after)) :
    ∃ before, (service.serve fresh request).response = answer.toResponse before ∧
      (service.serve fresh request).service = after := by
  have hroute := Request.submits_iff_route.mp h
  cases strategy with
  | replace => exact exchange_of_work hconsult hroute hwork
  | reconcile => exact exchange_of_work hconsult hroute hwork

theorem submit_of_report (h : service.repository = .working store) (strategy : Strategy)
    (id : String) {body : String} {report : Report} {log : List Log.Entry}
    (hreview : service.review body = (.ok report, log)) :
    let s := (store.commit (sourceOf strategy) (strategy.apply store.snapshot report.site)).1
    ∃ log, service.submit strategy id body =
      (.ok (.snapshot s report.warnings (messageOf strategy)), log,
        { service with repository := .working ⟨some s, store.clock.tick⟩ }) := by
  intro s
  rw [submit, hreview, h]
  exact ⟨_, rfl⟩

end Service

namespace Agreement

variable {store : Store} {checked replaced reconciled : Exchange}

theorem of_refuses {answer : Answer} (h : answer.Refuses)
    (hchecked : ∃ before, checked.response = answer.toResponse before)
    (hreplaced : ∃ before, replaced.response = answer.toResponse before)
    (hreconciled : ∃ before, reconciled.response = answer.toResponse before) :
    Agreement store checked replaced reconciled := by
  obtain ⟨before, hchecked⟩ := hchecked
  obtain ⟨_, hreplaced⟩ := hreplaced
  obtain ⟨_, hreconciled⟩ := hreconciled
  have hstatus : checked.response.status = answer.status := by rw [hchecked]; rfl
  exact {
    replaced_status := by rw [hreplaced, hchecked]; rfl
    reconciled_status := by rw [hreconciled, hchecked]; rfl
    status := hstatus ▸ List.mem_cons_of_mem 200 h.status
    refused := fun _ => by rw [hchecked, hreplaced, hreconciled]; exact ⟨rfl, rfl⟩
    listed := fun h422 => hchecked ▸ h.listsFindings (hstatus ▸ h422) before
    accepted := fun h200 => by
      have hmem := h.status
      rw [← hstatus, h200] at hmem
      simp at hmem }

theorem of_report {report : Report} {put patch : Snapshot}
    (hchecked : ∃ before, checked.response = (Answer.valid report).toResponse before)
    (hreplaced : ∃ before, replaced.response =
      (Answer.snapshot put report.warnings "Site configuration replaced").toResponse before)
    (hreconciled : ∃ before, reconciled.response =
      (Answer.snapshot patch report.warnings "Site configuration reconciled").toResponse before)
    (hput : replaced.service.repository = .working ⟨some put, store.clock.tick⟩)
    (hpatch : reconciled.service.repository = .working ⟨some patch, store.clock.tick⟩)
    (hsite : put.site = report.site) (hsource : put.source = "api:replace")
    (hempty : store.snapshot = none →
      put.version = 1 ∧ patch = { put with source := "api:reconcile" }) :
    Agreement store checked replaced reconciled := by
  obtain ⟨before, hchecked⟩ := hchecked
  obtain ⟨replacedBefore, hreplaced⟩ := hreplaced
  obtain ⟨reconciledBefore, hreconciled⟩ := hreconciled
  have hstatus : checked.response.status = 200 := by rw [hchecked]; rfl
  exact {
    replaced_status := by rw [hreplaced, hchecked]; rfl
    reconciled_status := by rw [hreconciled, hchecked]; rfl
    status := hstatus ▸ List.mem_cons_self
    refused := fun h => absurd hstatus h
    listed := fun h => by rw [hstatus] at h; cases h
    accepted := fun _ => ⟨report, put, patch,
      hchecked ▸ Answer.showsValid_toResponse report before,
      hreplaced ▸ Answer.showsStored_toResponse put report.warnings (by decide) replacedBefore,
      hreconciled ▸ Answer.showsStored_toResponse patch report.warnings
        (by decide) reconciledBefore,
      hput, hpatch, hsite, hsource, hempty⟩ }

end Agreement

namespace Service

variable {service : Service} {limit : Nat} {store : Store}

/-- The endpoints that take a declaration agree on every body, under every limit, over every store
that works and whatever it holds. In 64 bits its version must lie below 2 ^ 64 - 1. -/
theorem declarations_agree (h : service.Holds limit store) {check put patch : Request}
    (hcheck : check.Checks) (hput : put.Submits .replace) (hpatch : patch.Submits .reconcile)
    (hputBody : put.body = check.body) (hpatchBody : patch.body = check.body) (a b c : String) :
    Agreement store (service.serve a check) (service.serve b put) (service.serve c patch) := by
  have hadmitted := consult_holds h
  rcases hconsult : service.consult with ⟨_ | wait, admitted⟩
  · rw [hconsult] at hadmitted
    obtain ⟨answer, log, hrefuses, hreview⟩ | ⟨report, log, hreview⟩ :=
      review_refuses admitted check.body
    · have hvalidate : admitted.validate check.body = (.ok answer, log, admitted) := by
        rw [validate, hreview]
      have hsubmit (strategy : Strategy) (id : String) :
          admitted.submit strategy id check.body = (.ok answer, log, admitted) := by
        rw [submit, hreview]
      obtain ⟨_, hchecked, -⟩ := exchange_of_checks hconsult hcheck a hvalidate
      obtain ⟨_, hreplaced, -⟩ := exchange_of_submits hconsult hput b (hputBody ▸ hsubmit _ _)
      obtain ⟨_, hreconciled, -⟩ :=
        exchange_of_submits hconsult hpatch c (hpatchBody ▸ hsubmit _ _)
      exact .of_refuses hrefuses ⟨_, hchecked⟩ ⟨_, hreplaced⟩ ⟨_, hreconciled⟩
    · have hvalidate : admitted.validate check.body = (.ok (.valid report), log, admitted) := by
        rw [validate, hreview]
      obtain ⟨_, hstored⟩ := submit_of_report hadmitted.repository .replace
        (requestId b put) hreview
      obtain ⟨_, hlaid⟩ :=
        submit_of_report hadmitted.repository .reconcile (requestId c patch) hreview
      obtain ⟨_, hchecked, -⟩ := exchange_of_checks hconsult hcheck a hvalidate
      obtain ⟨_, hreplaced, hafter⟩ := exchange_of_submits hconsult hput b (hputBody ▸ hstored)
      obtain ⟨_, hreconciled, hafter'⟩ :=
        exchange_of_submits hconsult hpatch c (hpatchBody ▸ hlaid)
      refine .of_report ⟨_, hchecked⟩ ⟨_, hreplaced⟩ ⟨_, hreconciled⟩ (by rw [hafter])
        (by rw [hafter']) rfl rfl fun hempty => ?_
      simp [Store.commit, Store.nextVersion, hempty, Strategy.apply, sourceOf]
  · exact .of_refuses (.throttled wait) (response_of_throttled hconsult a check)
      (response_of_throttled hconsult b put) (response_of_throttled hconsult c patch)

theorem declarations_agree_unknown_field :
    let clock : Clock := .steady ⟨0⟩ 1
    let service : Service := { repository := .working (.new clock), clock, bodyLimit := 60 }
    let body := "\x7b\"title\":\"T\",\"description\":\"D\",\"theme\":1\x7d"
    let check : Request := ⟨"POST", "/api/site-config/validate", [], body⟩
    let put : Request := ⟨"PUT", "/api/site-config", [], body⟩
    let patch : Request := ⟨"PATCH", "/api/site-config", [], body⟩
    check.Checks ∧ put.Submits .replace ∧ patch.Submits .reconcile ∧
      (service.serve "a" check).response.status = 200 ∧
      ∃ replaced reconciled : Snapshot, reconciled = { replaced with source := "api:reconcile" } ∧
        (service.serve "b" put).service.repository = .working ⟨some replaced, clock.tick⟩ ∧
        (service.serve "c" patch).service.repository = .working ⟨some reconciled, clock.tick⟩ := by
  intro clock service body check put patch
  have hholds : service.Holds 60 (.new clock) := ⟨rfl, rfl⟩
  have hcheck : check.Checks := by decide +kernel
  have hput : put.Submits .replace := by decide +kernel
  have hpatch : patch.Submits .reconcile := by decide +kernel
  have hstatus : (service.serve "a" check).response.status = 200 := by decide +kernel
  obtain ⟨_, replaced, reconciled, -, -, -, hreplaced, hreconciled, -, -, hempty⟩ :=
    (declarations_agree hholds hcheck hput hpatch rfl rfl "a" "b" "c").accepted hstatus
  exact ⟨hcheck, hput, hpatch, hstatus, replaced, reconciled, (hempty rfl).2, hreplaced,
    hreconciled⟩

end Service

end DocSite.Http
