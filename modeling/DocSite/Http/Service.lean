import DocSite.Http.Answer
import DocSite.Http.Body
import DocSite.Http.Endpoint
import DocSite.Http.Limiter
import DocSite.Log

/-!
The service: a store behind endpoints, and the layers that every request passes on the way to one.
From the outside in, a request gets an id, is admitted by the limiter, is logged when it is done,
has its crashes caught, and has the headers for other pages set; only then is it routed.
-/

namespace DocSite.Http

/-- What the service keeps its configuration in: a store that works, or one of which every call goes
wrong in the same way. -/
inductive Repository
  | working (store : Store)
  | broken (trouble : Trouble)
deriving Repr

namespace Repository

def current : Repository → Except Trouble Snapshot
  | .working store => store.current
  | .broken trouble => .error trouble

def put (repository : Repository) (strategy : Strategy) (source : String) (site : Site) :
    Except Trouble Snapshot × Repository :=
  match repository with
  | .working store =>
    let (result, store) := store.put strategy source site
    (result, .working store)
  | .broken trouble => (.error trouble, .broken trouble)

end Repository

structure Service where
  repository : Repository
  clock : Clock
  limiter : Option Limiter := some .standard
  bodyLimit : Nat := 1048576
  logsRequests : Bool := true
  hasLog : Bool := true
deriving Repr

structure Exchange where
  response : Response
  log : List Log.Entry
  service : Service
deriving Repr

namespace Service

abbrev Work := Except String Answer × List Log.Entry × Service

def answerTrouble : Trouble → Except String Answer
  | .notLoaded => .ok (.unavailable Trouble.notLoaded.message)
  | .fault cause => .ok (.failed cause.message)
  | .crash message => .error message

/-- Tells the time and the version. A crash of the store comes after the clock was read. -/
def health (service : Service) : Work :=
  let after := { service with clock := service.clock.tick }
  let alive (version : Option Nat) := Answer.alive service.clock.now version
  match service.repository.current with
  | .ok snapshot => (.ok (alive (some snapshot.version)), [], after)
  | .error (.crash message) => (.error message, [], after)
  | .error _ => (.ok (alive none), [], after)

def current (service : Service) : Work :=
  match service.repository.current with
  | .ok snapshot => (.ok (.snapshot snapshot [] ""), [], service)
  | .error trouble => (answerTrouble trouble, [], service)

def refusal (fault : Fault) : Answer :=
  if fault.isInvalidConfig then .invalid fault else .failed fault.message

def review (service : Service) (body : String) : Except Answer Report × List Log.Entry :=
  match readDeclaration service.bodyLimit body with
  | .error .tooLarge => (.error .tooLarge, [])
  | .error .malformed => (.error .malformed, [])
  | .ok fields =>
    let (result, log) := buildLogged fields
    (result.mapError refusal, log)

def validate (service : Service) (body : String) : Work :=
  let (result, log) := service.review body
  match result with
  | .error answer => (.ok answer, log, service)
  | .ok report => (.ok (.valid report), log, service)

def stored (id : String) (snapshot : Snapshot) : Log.Entry :=
  ⟨.info, "site configuration swapped",
    [("version", .number snapshot.version), ("source", .text snapshot.source),
      ("request_id", .text id)]⟩

def sourceOf : Strategy → String
  | .replace => "api:replace"
  | .reconcile => "api:reconcile"

def messageOf : Strategy → String
  | .replace => "Site configuration replaced"
  | .reconcile => "Site configuration reconciled"

def submit (service : Service) (strategy : Strategy) (id body : String) : Work :=
  let (result, log) := service.review body
  match result with
  | .error answer => (.ok answer, log, service)
  | .ok report =>
    match service.repository.put strategy (sourceOf strategy) report.site with
    | (.ok snapshot, repository) =>
      (.ok (.snapshot snapshot report.warnings (messageOf strategy)),
        log ++ [stored id snapshot], { service with repository })
    | (.error (.crash message), repository) => (.error message, log, { service with repository })
    | (.error trouble, repository) =>
      (.ok (.failed trouble.message), log, { service with repository })

def work (service : Service) (id : String) (body : String) : Endpoint → Work
  | .health => service.health
  | .current => service.current
  | .replace => service.submit .replace id body
  | .reconcile => service.submit .reconcile id body
  | .validate => service.validate body

def dispatch (service : Service) (id : String) (request : Request) : Work :=
  let answer (a : Answer) : Work := (.ok a, [], service)
  if request.method = "OPTIONS" then answer .preflight
  else match route request with
    | .to endpoint => service.work id request.body endpoint
    | .notAllowed methods => answer (.notAllowed methods)
    | .notFound => answer .notFound
    | .moved location => answer (.moved location request.method)
    | .noPath => answer .noPath

def caught (service : Service) (work : Work) : Answer × List Log.Entry × Service :=
  match work with
  | (.ok answer, log, after) => (answer, log, after)
  | (.error message, log, after) =>
    (.crashed,
      log ++ (if service.hasLog then [⟨.error, "panic recovered", [("error", .text message)]⟩]
        else []),
      after)

def sharingHeaders : Headers :=
  [("Access-Control-Allow-Origin", "*"),
    ("Access-Control-Allow-Methods", "GET,POST,PUT,PATCH,OPTIONS"),
    ("Access-Control-Allow-Headers", "Content-Type,Authorization,X-Requested-With"),
    ("Access-Control-Expose-Headers", "X-Request-ID"),
    ("Access-Control-Max-Age", "86400")]

def completed (id : String) (request : Request) (status : Nat) : Log.Entry :=
  ⟨.info, "request completed",
    [("method", .text request.method), ("path", .text request.path), ("status", .number status),
      ("request_id", .text id)]⟩

def consult (service : Service) : Option Nat × Service :=
  match service.limiter with
  | none => (none, service)
  | some limiter =>
    match limiter.allow with
    | (true, rest) => (none, { service with limiter := some rest })
    | (false, rest) => (some limiter.retryAfter, { service with limiter := some rest })

/-- The id of a request: the one it brings, without blanks at its ends, or else a fresh one. -/
def requestId (fresh : String) (request : Request) : String :=
  let given := Text.trim (request.header "X-Request-ID")
  if given = "" then fresh else given

def serve (service : Service) (fresh : String) (request : Request) : Exchange :=
  let id := requestId fresh request
  let idHeader := ("X-Request-Id", id)
  match service.consult with
  | (some wait, after) => ⟨(Answer.throttled wait).toResponse [idHeader], [], after⟩
  | (none, admitted) =>
    let (answer, log, after) := admitted.caught (admitted.dispatch id request)
    let entry := completed id request answer.status
    ⟨answer.toResponse (idHeader :: sharingHeaders),
      log ++ (if service.logsRequests && service.hasLog then [entry] else []), after⟩

def base : String := "api"

/-- Answers a request to the server as a whole, which passes on only what lies below the base path.
-/
def serveRoot (service : Service) (fresh : String) (request : Request) : Exchange :=
  let answer (a : Answer) : Exchange := ⟨a.toResponse [], [], service⟩
  if request.target = "*" then answer .noPath
  else
    let target := Target.ofText request.target
    match target.segments with
    | [first] =>
      if first = base then
        answer (.moved (target.withPath (target.path ++ ['/'])) request.method)
      else answer .notFound
    | first :: _ :: _ =>
      match movedTo? request with
      | some location => answer (.moved location request.method)
      | none => if first = base then service.serve fresh request else answer .notFound
    | [] => answer .notFound

end Service

end DocSite.Http
