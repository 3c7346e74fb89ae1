import DocSite.Http.Message
import DocSite.Text.Order

namespace DocSite.Http

inductive Endpoint
  | health
  | current
  | replace
  | reconcile
  | validate
deriving DecidableEq, Repr

namespace Endpoint

def all : List Endpoint := [health, current, replace, reconcile, validate]

def method : Endpoint → String
  | .health => "GET"
  | .current => "GET"
  | .replace => "PUT"
  | .reconcile => "PATCH"
  | .validate => "POST"

def segments : Endpoint → List String
  | .health => ["api", "health"]
  | .current => ["api", "site-config"]
  | .replace => ["api", "site-config"]
  | .reconcile => ["api", "site-config"]
  | .validate => ["api", "site-config", "validate"]

def methods (endpoint : Endpoint) : List String :=
  if endpoint.method = "GET" then ["GET", "HEAD"] else [endpoint.method]

end Endpoint

inductive Route
  | to (endpoint : Endpoint)
  | notAllowed (methods : List String)
  | notFound
  | moved (location : String)
  | noPath
deriving DecidableEq, Repr

def methodsAt (segments : List String) : List String :=
  Text.sortBy Text.before
    ((Endpoint.all.filter (·.segments == segments)).flatMap Endpoint.methods)

/-- The clean form of a request's path, if the request has to ask for that instead. -/
def movedTo? (request : Request) : Option String :=
  let target := Target.ofText request.target
  if request.method = "CONNECT" ∨ target.cleanPath = target.path then none
  else some (target.withPath target.cleanPath)

def route (request : Request) : Route :=
  if request.target = "*" then .noPath
  else match movedTo? request with
    | some location => .moved location
    | none =>
      let segments := (Target.ofText request.target).segments
      match Endpoint.all.find? fun e =>
          e.segments == segments && e.methods.contains request.method with
      | some endpoint => .to endpoint
      | none =>
        match methodsAt segments with
        | [] => .notFound
        | methods => .notAllowed methods

end DocSite.Http
