import DocSite.Http.Layer
import DocSite.Proofs.Http.Run

/-!
What the layers around the endpoints come to. Every request gets one response under its id. One that
the limiter refuses gets nothing but the hint when to come back; every other one, and be it for a
crash, gets the headers for other pages, and leaves one entry in the log that tells the status that
was sent.
-/

namespace DocSite.Http

section Headers

def Headers.setAll (headers new : Headers) : Headers :=
  new.foldl (fun headers h => headers.set h.1 h.2) headers

theorem Headers.set_of_not_mem {name value : String} {headers : Headers}
    (h : name ∉ headers.map (·.1)) : headers.set name value = headers ++ [(name, value)] := by
  induction headers with
  | nil => rfl
  | cons a r ih =>
    rw [List.map_cons, List.mem_cons, not_or] at h
    rw [Headers.set, if_neg (Ne.symm h.1), ih h.2, List.cons_append]

theorem Headers.setAll_of_nodup {new headers : Headers}
    (h : ((headers ++ new).map (·.1)).Nodup) : headers.setAll new = headers ++ new := by
  induction new generalizing headers with
  | nil => rw [List.append_nil]; rfl
  | cons a r ih =>
    have hsplit : headers ++ a :: r = headers ++ [a] ++ r := by simp
    have hnot : a.1 ∉ headers.map (·.1) := by
      rw [List.map_append, List.map_cons] at h
      exact fun hmem => (List.nodup_append.mp h).2.2 _ hmem _ List.mem_cons_self rfl
    rw [setAll, List.foldl_cons, set_of_not_mem hnot]
    exact (ih (hsplit ▸ h)).trans hsplit.symm

def Response.values (response : Response) (name : String) : List String :=
  (response.headers.filter fun h => h.1 == name).map (·.2)

def Answer.headerNames : List String :=
  ["Retry-After", "Content-Type", "X-Content-Type-Options", "Allow", "Location", "Connection"]

theorem Answer.mem_headerNames {answer : Answer} {h : String × String} (hh : h ∈ answer.headers) :
    h.1 ∈ headerNames := by
  revert h
  cases answer <;> simp [headers, headerNames, plainHeaders]

theorem Answer.retryAfter_not_mem {answer : Answer} (h : ∀ wait, answer ≠ .throttled wait) :
    "Retry-After" ∉ answer.headers.map (·.1) := by
  cases answer with
  | throttled wait => exact absurd rfl (h wait)
  | moved location method =>
    simp only [headers]
    split <;> simp
  | _ => simp [headers, plainHeaders]

theorem Answer.nodup_headers (answer : Answer) : (answer.headers.map (·.1)).Nodup := by
  cases answer <;> simp [headers, plainHeaders]
  split <;> simp

end Headers

def Draft.answered (draft : Draft) (answer : Answer) : Draft :=
  let headers := draft.headers.setAll answer.headers
  ⟨headers, draft.sent ++ [(answer.status, headers)], draft.body ++ answer.body⟩

def Desk.worked (desk : Desk) (draft : Draft) : Service.Work → Except String Unit × Desk
  | (.ok answer, log, after) => (.ok (), ⟨draft.answered answer, desk.log ++ log, after⟩)
  | (.error message, log, after) => (.error message, ⟨draft, desk.log ++ log, after⟩)

namespace Task

theorem run_bind {α : Type} (task : ExceptT String (StateM Desk) α) {desk after : Desk} {x : α}
    (h : task.run.run desk = (.ok x, after)) (f : α → Task) :
    (task >>= f).run.run desk = (f x).run.run after := by
  rw [ExceptT.run_bind, StateT.run_bind, h]
  rfl

theorem run_setHeaders (new : Headers) (desk : Desk) : (setHeaders new).run.run desk =
    (.ok (), { desk with draft.headers := desk.draft.headers.setAll new }) := by
  induction new generalizing desk with
  | nil => rfl
  | cons h r ih =>
    rw [setHeaders, run_bind (setHeader h.1 h.2) rfl]
    exact ih _

theorem run_respond (answer : Answer) (desk : Desk) : (respond answer).run.run desk =
    (.ok (), { desk with draft := desk.draft.answered answer }) := by
  rw [respond, run_bind _ (run_setHeaders ..)]
  rfl

theorem run_handle (id body : String) (endpoint : Endpoint) (desk : Desk) :
    (handle id body endpoint).run.run desk =
      desk.worked desk.draft (desk.service.work id body endpoint) := by
  rw [handle, run_bind get rfl]
  rcases desk.service.work id body endpoint with ⟨message | answer, log, after⟩
  · rfl
  · exact run_respond answer ⟨desk.draft, desk.log ++ log, after⟩

theorem run_shared (id : String) (request : Request) (desk : Desk) :
    (shared request (routed id request)).run.run desk =
      desk.worked { desk.draft with headers := desk.draft.headers.setAll Service.sharingHeaders }
        (desk.service.dispatch id request) := by
  rw [shared, run_bind _ (run_setHeaders ..), Service.dispatch]
  have hanswer (answer : Answer) (draft : Draft) :
      (respond answer).run.run { desk with draft } =
        desk.worked draft (.ok answer, [], desk.service) := by
    rw [run_respond, Desk.worked, List.append_nil]
  split
  · exact hanswer _ _
  · rw [routed]
    rcases route request with endpoint | _ | _ | _ | _
    · exact run_handle _ _ _ _
    all_goals exact hanswer _ _

theorem run_guarded_ok {inner : Task} {desk after : Desk}
    (h : inner.run.run desk = (.ok (), after)) (hasLog : Bool) :
    (guarded hasLog inner).run.run desk = (.ok (), after) := by
  rw [guarded, ExceptT.run_tryCatch, StateT.run_bind, h]
  rfl

theorem run_guarded_error {inner : Task} {desk after : Desk} {message : String}
    (h : inner.run.run desk = (.error message, after)) (hasLog : Bool) :
    (guarded hasLog inner).run.run desk =
      (.ok (), ⟨after.draft.answered .crashed,
        after.log ++ (if hasLog then [⟨.error, "panic recovered", [("error", .text message)]⟩]
          else []), after.service⟩) := by
  rw [guarded, ExceptT.run_tryCatch, StateT.run_bind, h]
  exact run_respond .crashed ⟨after.draft, _, after.service⟩

theorem run_work (id : String) (request : Request) (desk : Desk) {hasLog : Bool}
    (hlog : desk.service.hasLog = hasLog) :
    let (answer, log, after) := desk.service.caught (desk.service.dispatch id request)
    (guarded hasLog (shared request (routed id request))).run.run desk =
      (.ok (), ⟨{ desk.draft with
          headers := desk.draft.headers.setAll Service.sharingHeaders }.answered answer,
        desk.log ++ log, after⟩) := by
  have hrun := run_shared id request desk
  rcases hwork : desk.service.dispatch id request with ⟨message | answer, log, after⟩
  · rw [hwork, Desk.worked] at hrun
    rw [run_guarded_error hrun, Service.caught, hlog]
    simp only [List.append_assoc]
  · rw [hwork, Desk.worked] at hrun
    exact run_guarded_ok hrun hasLog

theorem run_logged {inner : Task} {desk after : Desk} {answer : Answer} {draft : Draft}
    (hinner : inner.run.run desk = (.ok (), after)) (hafter : after.draft = draft.answered answer)
    (hsent : draft.sent = desk.draft.sent) (id : String) (request : Request) :
    (logged id request inner).run.run desk =
      (.ok (), { after with
        log := after.log ++ [Service.completed id request answer.status] }) := by
  have hseen : after.draft.sent.drop desk.draft.sent.length =
      [(answer.status, draft.headers.setAll answer.headers)] := by
    rw [hafter, Draft.answered, hsent, List.drop_left]
  rw [logged, run_bind get rfl, run_bind _ hinner, run_bind get rfl, hseen]
  rfl

theorem run_limited (inner : Task) (desk : Desk) :
    (limited inner).run.run desk = match desk.service.consult with
      | (none, admitted) => inner.run.run { desk with service := admitted }
      | (some wait, refused) =>
        (respond (.throttled wait)).run.run { desk with service := refused } := by
  rw [limited, run_bind get rfl, Service.consult]
  cases desk.service.limiter with
  | none => rfl
  | some limiter =>
    rcases hallow : limiter.allow with ⟨_ | _, rest⟩
    · simp only [hallow]
      rfl
    · simp only [hallow]
      rfl

end Task

namespace Service

theorem hasLog_consult (service : Service) : service.consult.2.hasLog = service.hasLog := by
  rw [consult]
  split
  · rfl
  · split <;> rfl

theorem nodup_names (id : String) (answer : Answer) :
    (([("X-Request-Id", id)] ++ sharingHeaders ++ answer.headers).map (·.1)).Nodup := by
  have hapart : ∀ name ∈ "X-Request-Id" :: sharingHeaders.map (·.1),
      name ∉ Answer.headerNames := by decide
  rw [List.map_append, List.nodup_append]
  refine ⟨by simp [sharingHeaders], answer.nodup_headers, ?_⟩
  rintro name hname other hother rfl
  obtain ⟨h, hh, rfl⟩ := List.mem_map.mp hother
  exact hapart _ hname (Answer.mem_headerNames hh)

theorem answered_shared (id : String) (answer : Answer) :
    (⟨Headers.setAll [("X-Request-Id", id)] sharingHeaders, [], ""⟩ : Draft).answered answer =
      let response := answer.toResponse (("X-Request-Id", id) :: sharingHeaders)
      ⟨response.headers, [(response.status, response.headers)], response.body⟩ := by
  have hall := nodup_names id answer
  have hshared : (([("X-Request-Id", id)] ++ sharingHeaders).map (·.1)).Nodup := by
    rw [List.map_append] at hall
    exact (List.nodup_append.mp hall).1
  rw [Draft.answered, Headers.setAll_of_nodup hshared, Headers.setAll_of_nodup hall]
  simp [Answer.toResponse]

theorem run_innerLayers {service admitted : Service} (hlog : admitted.hasLog = service.hasLog)
    (id : String) (request : Request) :
    let (answer, log, after) := admitted.caught (admitted.dispatch id request)
    (service.innerLayers id request).run.run ⟨⟨[("X-Request-Id", id)], [], ""⟩, [], admitted⟩ =
      (.ok (), .done ⟨answer.toResponse (("X-Request-Id", id) :: sharingHeaders),
        log ++ (if service.logsRequests && service.hasLog then
          [completed id request answer.status] else []), after⟩) := by
  have hwork := Task.run_work id request ⟨⟨[("X-Request-Id", id)], [], ""⟩, [], admitted⟩ hlog
  rcases hcaught : admitted.caught (admitted.dispatch id request) with ⟨answer, log, after⟩
  dsimp only at hwork ⊢
  rw [hcaught] at hwork
  rw [innerLayers]
  split
  · exact (Task.run_logged hwork rfl rfl id request).trans (by rw [answered_shared]; rfl)
  · exact hwork.trans (by rw [answered_shared, List.append_nil]; rfl)

theorem run_layers (service : Service) (fresh : String) (request : Request) :
    (service.layers fresh request).run.run (.start service) =
      (.ok (), .done (service.serve fresh request)) := by
  let id := requestId fresh request
  let draft : Draft := ⟨[("X-Request-Id", id)], [], ""⟩
  have hlimited := Task.run_limited (service.innerLayers id request) ⟨draft, [], service⟩
  have hlog := hasLog_consult service
  rw [layers, Task.identified, Task.run_bind (Task.setHeader _ _) rfl]
  refine hlimited.trans ?_
  rw [serve]
  dsimp only
  rcases hconsult : service.consult with ⟨_ | wait, admitted⟩ <;> rw [hconsult] at hlog
  · exact run_innerLayers hlog id request
  · exact Task.run_respond (.throttled wait) ⟨draft, [], admitted⟩

end Service

section Values

variable {response : Response}

theorem Response.values_of_mem (hnodup : (response.headers.map (·.1)).Nodup) {h : String × String}
    (hh : h ∈ response.headers) : response.values h.1 = [h.2] := by
  rw [values]
  generalize response.headers = headers at hnodup hh
  induction headers with
  | nil => cases hh
  | cons a r ih =>
    rw [List.map_cons, List.nodup_cons] at hnodup
    obtain rfl | hr := List.mem_cons.mp hh
    · have hrest : r.filter (fun b => b.1 == h.1) = [] := by
        rw [List.filter_eq_nil_iff]
        intro b hb heq
        exact hnodup.1 (List.mem_map.mpr ⟨b, hb, by simpa using heq⟩)
      simp [hrest]
    · have hne : (a.1 == h.1) = false := by
        rw [beq_eq_false_iff_ne]
        exact fun heq => hnodup.1 (List.mem_map.mpr ⟨h, hr, heq.symm⟩)
      rw [List.filter_cons_of_neg (by simp [hne])]
      exact ih hnodup.2 hr

theorem Response.values_of_not_mem {name : String} (h : name ∉ response.headers.map (·.1)) :
    response.values name = [] := by
  rw [values, List.map_eq_nil_iff, List.filter_eq_nil_iff]
  intro a ha heq
  exact h (List.mem_map.mpr ⟨a, ha, by simpa using heq⟩)

end Values

namespace Service

variable {service : Service} {id : String} {request : Request}

/-- None of the entries is about a request as a whole. -/
def Partial (log : List Log.Entry) : Prop := ∀ entry ∈ log, entry.message ≠ "request completed"

theorem partial_nil : Partial [] := by simp [Partial]

theorem partial_append {before more : List Log.Entry} (hbefore : Partial before)
    (hmore : Partial more) : Partial (before ++ more) := by
  intro entry h
  obtain h | h := List.mem_append.mp h
  · exact hbefore entry h
  · exact hmore entry h

theorem partial_singleton {entry : Log.Entry} (h : entry.message ≠ "request completed") :
    Partial [entry] := by
  intro other hother
  rwa [List.mem_singleton.mp hother]

theorem partial_log (report : Report) : Partial report.log := by
  refine partial_append (fun entry h => ?_) (partial_singleton (by simp))
  obtain ⟨w, -, rfl⟩ := List.mem_map.mp h
  simp

/-- Work as the endpoints do it: no entry is about the request as a whole, and no answer has the
client wait. -/
structure Inner (work : Work) : Prop where
  log : Partial work.2.1
  answer : ∀ wait, work.1 ≠ .ok (.throttled wait)

theorem partial_review (service : Service) (body : String) :
    Partial (service.review body).2 ∧ ∀ wait,
      (service.review body).1 ≠ .error (.throttled wait) := by
  rw [review_eq]
  cases readDeclaration service.bodyLimit body with
  | error fault => cases fault <;> exact ⟨partial_nil, by rintro _ ⟨⟩⟩
  | ok fields =>
    dsimp only
    cases build fields with
    | error fault => exact ⟨partial_nil, by rintro _ ⟨⟩⟩
    | ok report => exact ⟨partial_log report, by rintro _ ⟨⟩⟩

theorem inner_validate (service : Service) (body : String) : Inner (service.validate body) := by
  obtain ⟨hlog, hanswer⟩ := partial_review service body
  rw [validate]
  rcases hreview : service.review body with ⟨answer | report, log⟩ <;> rw [hreview] at hlog hanswer
  · exact ⟨hlog, fun wait heq => hanswer wait (congrArg Except.error (Except.ok.inj heq))⟩
  · exact ⟨hlog, by rintro _ ⟨⟩⟩

theorem inner_submit (service : Service) (strategy : Strategy) (id body : String) :
    Inner (service.submit strategy id body) := by
  obtain ⟨hlog, hanswer⟩ := partial_review service body
  rw [submit]
  rcases hreview : service.review body with ⟨answer | report, log⟩ <;> rw [hreview] at hlog hanswer
  · exact ⟨hlog, fun wait heq => hanswer wait (congrArg Except.error (Except.ok.inj heq))⟩
  · dsimp only
    rcases service.repository.put strategy (sourceOf strategy) report.site with
      ⟨(_ | _ | _) | snapshot, repository⟩
    · exact ⟨hlog, by rintro _ ⟨⟩⟩
    · exact ⟨hlog, by rintro _ ⟨⟩⟩
    · exact ⟨hlog, by rintro _ ⟨⟩⟩
    · exact ⟨partial_append hlog (partial_singleton (by simp [stored])), by rintro _ ⟨⟩⟩

theorem inner_work (service : Service) (id body : String) (endpoint : Endpoint) :
    Inner (service.work id body endpoint) := by
  cases endpoint with
  | health =>
    rw [work, health]
    rcases service.repository.current with (_ | _ | _) | _ <;> exact ⟨partial_nil, by rintro _ ⟨⟩⟩
  | current =>
    rw [work, current]
    rcases service.repository.current with (_ | _ | _) | _ <;> exact ⟨partial_nil, by rintro _ ⟨⟩⟩
  | replace => exact inner_submit service .replace id body
  | reconcile => exact inner_submit service .reconcile id body
  | validate => exact inner_validate service body

theorem inner_dispatch (service : Service) (id : String) (request : Request) :
    Inner (service.dispatch id request) := by
  rw [dispatch]
  split
  · exact ⟨partial_nil, by rintro _ ⟨⟩⟩
  · rcases route request with endpoint | _ | _ | _ | _
    · exact inner_work service id request.body endpoint
    all_goals exact ⟨partial_nil, by rintro _ ⟨⟩⟩

theorem inner_caught (service : Service) {work : Work} (h : Inner work) :
    let (answer, log, after) := service.caught work
    Inner (.ok answer, log, after) := by
  rcases work with ⟨message | answer, log, after⟩
  · refine ⟨partial_append h.log ?_, by rintro _ ⟨⟩⟩
    split
    · exact partial_singleton (by simp)
    · exact partial_nil
  · exact h

theorem filter_of_partial {log : List Log.Entry} (h : Partial log) :
    log.filter (fun entry => entry.message == "request completed") = [] := by
  rw [List.filter_eq_nil_iff]
  intro entry hentry
  simpa using h entry hentry

end Service

/-- What holds of a request however the limiter decides, whatever is logged, and whether the store
works, fails or crashes. -/
structure LayersLaw (service : Service) (fresh : String) (request : Request)
    (exchange : Exchange) : Prop where
  once : (service.layers fresh request).run.run (.start service) = (.ok (), .done exchange)
  id : Service.requestId fresh request =
    let given := Text.trim (request.header "X-Request-ID")
    if given = "" then fresh else given
  identified : exchange.response.values "X-Request-Id" = [Service.requestId fresh request]
  denied : ∀ limiter, service.limiter = some limiter → limiter.allow.1 = false →
    exchange.response.status = 429 ∧
      (∃ seconds : Nat, 1 ≤ seconds ∧ exchange.response.values "Retry-After" = [toString seconds]) ∧
      (∀ h ∈ Service.sharingHeaders, exchange.response.values h.1 = []) ∧
      exchange.log = [] ∧ exchange.service = { service with limiter := some limiter.allow.2 }
  admitted : (∀ limiter, service.limiter = some limiter → limiter.allow.1 = true) →
    (∀ h ∈ Service.sharingHeaders, exchange.response.values h.1 = [h.2]) ∧
      exchange.response.values "Retry-After" = [] ∧
      exchange.log.filter (fun entry => entry.message == "request completed") =
        if service.logsRequests && service.hasLog then
          [⟨.info, "request completed",
            [("method", .text request.method), ("path", .text request.path),
              ("status", .number exchange.response.status),
              ("request_id", .text (Service.requestId fresh request))]⟩]
        else []

namespace Service

theorem serve_of_denies {service : Service} {limiter : Limiter}
    (hlimiter : service.limiter = some limiter) (hallow : limiter.allow.1 = false)
    (fresh : String) (request : Request) :
    service.serve fresh request =
      ⟨(Answer.throttled limiter.retryAfter).toResponse
          [("X-Request-Id", requestId fresh request)], [],
        { service with limiter := some limiter.allow.2 }⟩ := by
  rcases h : limiter.allow with ⟨_ | _, rest⟩ <;> rw [h] at hallow
  · rw [serve, consult, hlimiter]
    simp only [h]
  · cases hallow

theorem consult_of_admits {service : Service}
    (h : ∀ limiter, service.limiter = some limiter → limiter.allow.1 = true) :
    service.consult.1 = none := by
  rw [consult]
  cases hlimiter : service.limiter with
  | none => rfl
  | some limiter =>
    have hallow := h limiter hlimiter
    rcases hlimit : limiter.allow with ⟨_ | _, rest⟩ <;> rw [hlimit] at hallow
    · cases hallow
    · simp only [hlimit]

theorem serve_of_admits {service : Service} (h : service.consult.1 = none) (fresh : String)
    (request : Request) :
    let id := requestId fresh request
    ∃ answer log after, Inner (.ok answer, log, after) ∧ service.serve fresh request =
      ⟨answer.toResponse (("X-Request-Id", id) :: sharingHeaders),
        log ++ (if service.logsRequests && service.hasLog then
          [completed id request answer.status] else []), after⟩ := by
  intro id
  rw [serve]
  rcases hconsult : service.consult with ⟨_ | wait, admitted⟩ <;> rw [hconsult] at h
  · exact ⟨_, _, _, inner_caught admitted (inner_dispatch admitted id request), rfl⟩
  · cases h

theorem values_shared (id : String) (answer : Answer) {h : String × String}
    (hh : h ∈ ("X-Request-Id", id) :: sharingHeaders) :
    (answer.toResponse (("X-Request-Id", id) :: sharingHeaders)).values h.1 = [h.2] :=
  Response.values_of_mem (nodup_names id answer) (List.mem_append_left _ hh)

theorem values_throttled (id : String) (wait : Nat) {h : String × String}
    (hh : h ∈ sharingHeaders) :
    ((Answer.throttled wait).toResponse [("X-Request-Id", id)]).values h.1 = [] := by
  have hapart : ∀ h ∈ sharingHeaders, h.1 ∉ ["X-Request-Id", "Retry-After", "Content-Type"] := by
    decide
  exact Response.values_of_not_mem (hapart h hh)

theorem values_retryAfter (id : String) {answer : Answer}
    (h : ∀ wait, answer ≠ .throttled wait) :
    (answer.toResponse (("X-Request-Id", id) :: sharingHeaders)).values "Retry-After" = [] := by
  have hapart : "Retry-After" ∉ "X-Request-Id" :: sharingHeaders.map (·.1) := by decide
  refine Response.values_of_not_mem ?_
  rw [Answer.toResponse, List.map_append, List.mem_append, not_or]
  exact ⟨hapart, Answer.retryAfter_not_mem h⟩

theorem values_requestId (service : Service) (fresh : String) (request : Request) :
    (service.serve fresh request).response.values "X-Request-Id" = [requestId fresh request] := by
  rcases hconsult : service.consult.1 with _ | wait
  · obtain ⟨answer, log, after, -, hserve⟩ := serve_of_admits hconsult fresh request
    rw [hserve]
    exact values_shared _ answer List.mem_cons_self
  · rw [serve]
    rcases h : service.consult with ⟨_ | wait, after⟩ <;> rw [h] at hconsult
    · cases hconsult
    · rfl

/-- Every request that comes to the service obeys the law of its layers. -/
theorem serve_layersLaw (service : Service) (fresh : String) (request : Request) :
    LayersLaw service fresh request (service.serve fresh request) where
  once := run_layers service fresh request
  id := rfl
  identified := values_requestId service fresh request
  denied limiter hlimiter hallow := by
    rw [serve_of_denies hlimiter hallow]
    exact ⟨rfl, ⟨limiter.retryAfter, limiter.one_le_retryAfter, rfl⟩,
      fun h hh => values_throttled _ _ hh, rfl, rfl⟩
  admitted h := by
    obtain ⟨answer, log, after, hinner, hserve⟩ :=
      serve_of_admits (consult_of_admits h) fresh request
    rw [hserve]
    refine ⟨fun h hh => values_shared _ answer (List.mem_cons_of_mem _ hh),
      values_retryAfter _ fun wait heq => hinner.answer wait (by rw [heq]), ?_⟩
    rw [List.filter_append, filter_of_partial hinner.log, List.nil_append]
    split
    · rfl
    · rfl

end Service

end DocSite.Http
