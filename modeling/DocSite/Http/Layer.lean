import DocSite.Http.Service

namespace DocSite.Http

def Headers.set (name value : String) : Headers → Headers
  | [] => [(name, value)]
  | h :: r => if h.1 = name then (name, value) :: r else h :: Headers.set name value r

/-- A response that is being written: the headers as they are, every status that was sent, with the
headers that went along, and the body so far. -/
structure Draft where
  headers : Headers
  sent : List (Nat × Headers)
  body : String
deriving DecidableEq, Repr

structure Desk where
  draft : Draft
  log : List Log.Entry
  service : Service
deriving Repr

abbrev Task := ExceptT String (StateM Desk) Unit

namespace Task

def setHeader (name value : String) : Task :=
  modify fun desk => { desk with draft.headers := desk.draft.headers.set name value }

def send (status : Nat) : Task :=
  modify fun desk =>
    { desk with draft.sent := desk.draft.sent ++ [(status, desk.draft.headers)] }

def write (text : String) : Task :=
  modify fun desk => { desk with draft.body := desk.draft.body ++ text }

def log (entries : List Log.Entry) : Task :=
  modify fun desk => { desk with log := desk.log ++ entries }

def setHeaders : Headers → Task
  | [] => pure ()
  | h :: r => do
    setHeader h.1 h.2
    setHeaders r

def respond (answer : Answer) : Task := do
  setHeaders answer.headers
  send answer.status
  write answer.body

def handle (id body : String) (endpoint : Endpoint) : Task := do
  let desk ← get
  let (result, entries, service) := desk.service.work id body endpoint
  set { desk with log := desk.log ++ entries, service }
  match result with
  | .ok answer => respond answer
  | .error message => throw message

def routed (id : String) (request : Request) : Task :=
  match route request with
  | .to endpoint => handle id request.body endpoint
  | .notAllowed methods => respond (.notAllowed methods)
  | .notFound => respond .notFound
  | .moved location => respond (.moved location request.method)
  | .noPath => respond .noPath

def shared (request : Request) (inner : Task) : Task := do
  setHeaders Service.sharingHeaders
  if request.method = "OPTIONS" then respond .preflight else inner

def guarded (hasLog : Bool) (inner : Task) : Task :=
  tryCatch inner fun message => do
    log (if hasLog then [⟨.error, "panic recovered", [("error", .text message)]⟩] else [])
    respond .crashed

/-- Logs the request when it is done, with the last status that was sent on the way. -/
def logged (id : String) (request : Request) (inner : Task) : Task := do
  let before := (← get).draft.sent
  inner
  let seen := (← get).draft.sent.drop before.length
  log [Service.completed id request ((seen.getLast?.map (·.1)).getD 200)]

def limited (inner : Task) : Task := do
  let desk ← get
  match desk.service.limiter with
  | none => inner
  | some limiter =>
    let (allowed, rest) := limiter.allow
    set { desk with service.limiter := some rest }
    if allowed then inner else respond (.throttled limiter.retryAfter)

def identified (fresh : String) (request : Request) (inner : String → Task) : Task := do
  let id := Service.requestId fresh request
  setHeader "X-Request-Id" id
  inner id

end Task

namespace Service

def innerLayers (service : Service) (id : String) (request : Request) : Task :=
  let work := Task.guarded service.hasLog (.shared request (.routed id request))
  if service.logsRequests && service.hasLog then .logged id request work else work

def layers (service : Service) (fresh : String) (request : Request) : Task :=
  .identified fresh request fun id => .limited (service.innerLayers id request)

end Service

def Desk.start (service : Service) : Desk := ⟨⟨[], [], ""⟩, [], service⟩

def Desk.done (exchange : Exchange) : Desk :=
  let response := exchange.response
  ⟨⟨response.headers, [(response.status, response.headers)], response.body⟩, exchange.log,
    exchange.service⟩

end DocSite.Http
