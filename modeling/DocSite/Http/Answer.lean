import DocSite.Http.Message
import DocSite.Json.Writer
import DocSite.Schema.Build
import DocSite.Site.Declaration
import DocSite.Store

namespace DocSite.Http

inductive Answer
  | snapshot (snapshot : Snapshot) (warnings : List Warning) (message : String)
  | valid (report : Report)
  | alive (time : Instant) (version : Option Nat)
  | tooLarge
  | malformed
  | invalid (fault : Fault)
  | unavailable (details : String)
  | failed (details : String)
  | crashed
  | throttled (wait : Nat)
  | preflight
  | notFound
  | notAllowed (methods : List String)
  | moved (location method : String)
  | noPath
deriving Repr

namespace Answer

def status : Answer → Nat
  | .snapshot .. => 200
  | .valid _ => 200
  | .alive .. => 200
  | .tooLarge => 413
  | .malformed => 400
  | .invalid _ => 422
  | .unavailable _ => 503
  | .failed _ => 500
  | .crashed => 500
  | .throttled _ => 429
  | .preflight => 204
  | .notFound => 404
  | .notAllowed _ => 405
  | .moved .. => 301
  | .noPath => 400

def count (n : Nat) : Json := .number (toString n)

def warningItems (warnings : List Warning) : List Json :=
  warnings.map fun w => .object [("path", .text w.path), ("message", .text w.message)]

def findingItems (findings : List Finding) : List Json :=
  findings.map fun f =>
    .object [("kind", .text f.kind), ("location", .text f.location), ("message", .text f.message)]

def siteDocument (site : Site) : Json := Json.ofFields site.toFields

def complaint (title details : String) : Json :=
  .object [("error", .text title), ("details", .text details)]

def document? : Answer → Option Json
  | .snapshot s warnings message =>
    some (.object
      ([("version", count s.version), ("source", .text s.source),
        ("updatedAt", .text s.updatedAt.text), ("config", siteDocument s.site)] ++
      (if warnings.isEmpty then [] else [("warnings", .array (warningItems warnings))]) ++
      (if message.isEmpty then [] else [("message", .text message)])))
  | .valid report =>
    some (.object [("valid", .bool true), ("config", siteDocument report.site),
      ("warnings", .array (warningItems report.warnings))])
  | .alive time version =>
    some (.object
      ([("status", .text "ok"), ("timestamp", .text time.text)] ++
      match version with
      | some version => [("configVersion", count version)]
      | none => []))
  | .tooLarge => some (complaint "Invalid request" "declaration exceeds the allowed size")
  | .malformed => some (complaint "Invalid request" "unable to parse JSON payload")
  | .invalid fault =>
    some (.object
      ([("error", .text "Invalid site configuration"), ("details", .text fault.message),
        ("suggestion", .text "Fix the listed fields and submit the whole declaration again")] ++
      (if fault.findings.isEmpty then [] else
        [("findings", .array (findingItems fault.findings))])))
  | .unavailable details => some (complaint "Configuration unavailable" details)
  | .failed details => some (complaint "Internal error" details)
  | .crashed => some (complaint "Internal error" "unexpected server error")
  | .throttled _ =>
    some (complaint "Too many requests" "rate limit exceeded, please retry shortly")
  | _ => none

def pageEscape (c : Char) : List Char :=
  match c with
  | '&' => "&amp;".toList
  | '<' => "&lt;".toList
  | '>' => "&gt;".toList
  | '"' => "&#34;".toList
  | '\'' => "&#39;".toList
  | c => [c]

def plainText : Answer → String
  | .notFound => "404 page not found\n"
  | .notAllowed _ => "Method Not Allowed\n"
  | .moved location method =>
    if method = "GET" then
      "<a href=\"" ++ String.ofList (location.toList.flatMap pageEscape) ++
        "\">Moved Permanently</a>.\n\n"
    else ""
  | _ => ""

def body (answer : Answer) : String :=
  match answer.document? with
  | some document => Json.line document
  | none => answer.plainText

def plainHeaders : Headers :=
  [("Content-Type", "text/plain; charset=utf-8"), ("X-Content-Type-Options", "nosniff")]

def headers (answer : Answer) : Headers :=
  match answer with
  | .throttled wait => [("Retry-After", toString wait), ("Content-Type", "application/json")]
  | .preflight => []
  | .notFound => plainHeaders
  | .notAllowed methods => ("Allow", String.intercalate ", " methods) :: plainHeaders
  | .moved location method =>
    ("Location", location) ::
      if method = "GET" ∨ method = "HEAD" then [("Content-Type", "text/html; charset=utf-8")]
      else []
  | .noPath => [("Connection", "close")]
  | _ => [("Content-Type", "application/json")]

def toResponse (answer : Answer) (before : Headers) : Response :=
  ⟨answer.status, before ++ answer.headers, answer.body⟩

end Answer

end DocSite.Http
