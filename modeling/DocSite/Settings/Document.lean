import DocSite.Settings.Basic
import DocSite.Yaml.Node.Reader
import DocSite.Yaml.Node.Record
import DocSite.Yaml.Node.Tally

namespace DocSite.Settings

structure Document where
  port : Option String := none
  declaration : Option String := none
  watch : Option Bool := none
  watchDebounce : Option String := none
  reloadStrategy : Option String := none
  logLevel : Option String := none
  shutdownGracePeriod : Option String := none
  readHeaderTimeout : Option String := none
  writeTimeout : Option String := none
  idleTimeout : Option String := none
  requestLogging : Option Bool := none
  maxBodyBytes : Option Int := none
  rate : Option Binary64 := none
  burst : Option Int := none
deriving Repr, DecidableEq

namespace Document

open Yaml (Node Record)

def ofRecord? (record : Record) : Option Document := do
  let limits ← record.field (fun node => (Record.ofNode? node).map some) "rate_limit"
  let limits := limits.getD .empty
  return {
    port := ← record.field Node.asText? "port"
    declaration := ← record.field Node.asText? "declaration"
    watch := ← record.field Node.asBool? "watch"
    watchDebounce := ← record.field Node.asText? "watch_debounce"
    reloadStrategy := ← record.field Node.asText? "reload_strategy"
    logLevel := ← record.field Node.asText? "log_level"
    shutdownGracePeriod := ← record.field Node.asText? "shutdown_grace_period"
    readHeaderTimeout := ← record.field Node.asText? "read_header_timeout"
    writeTimeout := ← record.field Node.asText? "write_timeout"
    idleTimeout := ← record.field Node.asText? "idle_timeout"
    requestLogging := ← record.field Node.asBool? "enable_request_logging"
    maxBodyBytes := ← record.field Node.asInt? "max_body_bytes"
    rate := ← limits.field Node.asFloat? "rps"
    burst := ← limits.field Node.asInt? "burst" }

def shape : Yaml.Shape :=
  .record <|
    ["port", "declaration", "watch", "watch_debounce", "reload_strategy", "log_level",
      "shutdown_grace_period", "read_header_timeout", "write_timeout", "idle_timeout",
      "enable_request_logging", "max_body_bytes"].map (fun name => (name, .any)) ++
    [("rate_limit", .record [("rps", .any), ("burst", .any)])]

def parse? (text : String) : Option Document :=
  match Yaml.readDocument text.toList with
  | none => none
  | some none => some {}
  | some (some node) =>
    if node.withinAllowance shape then (Record.ofNode? node).bind ofRecord? else none

def readDuration (name : String) (text : Option String) : Except Fault (Option Duration) :=
  match given text with
  | none => .ok none
  | some text =>
    match Duration.read text with
    | .ok d => .ok (some d)
    | .error fault => .error (.wrap name (.plain (fault.message text)))

/-- What a document sets. Of several durations that cannot be read the first is told. -/
def layer (document : Document) : Except Fault Layer := do
  let watchDebounce ← readDuration "watch_debounce" document.watchDebounce
  let shutdownGracePeriod ← readDuration "shutdown_grace_period" document.shutdownGracePeriod
  let readHeaderTimeout ← readDuration "read_header_timeout" document.readHeaderTimeout
  let writeTimeout ← readDuration "write_timeout" document.writeTimeout
  let idleTimeout ← readDuration "idle_timeout" document.idleTimeout
  return {
    port := given document.port
    declaration := given document.declaration
    watch := document.watch
    watchDebounce, shutdownGracePeriod, readHeaderTimeout, writeTimeout, idleTimeout
    reloadStrategy := given document.reloadStrategy
    logLevel := given document.logLevel
    requestLogging := document.requestLogging
    maxBodyBytes := document.maxBodyBytes.filter (0 < ·)
    rate := document.rate
    burst := document.burst }

end Document

end DocSite.Settings
