import DocSite.Files
import DocSite.Settings.Document
import DocSite.Settings.Environment

/-!
The settings that a run of the service has: those of the command line over those of a document,
these over the environment, and that over the defaults.
-/

namespace DocSite.Settings

structure Overrides where
  document : String := ""
  port : Option String := none
  declaration : Option String := none
  watch : Option Bool := none
  reloadStrategy : Option String := none
  logLevel : Option String := none
  rate : Option Binary64 := none
  burst : Option Int := none
deriving Repr, DecidableEq

def Overrides.layer (overrides : Overrides) : Layer where
  port := given overrides.port
  declaration := given overrides.declaration
  watch := overrides.watch
  reloadStrategy := given overrides.reloadStrategy
  logLevel := given overrides.logLevel
  rate := overrides.rate.filter (·.isNonNegative)
  burst := overrides.burst.filter (0 ≤ ·)

inductive Refusal
  | environment (members : List Misread)
  | fault (cause : Fault)
deriving Repr

def Refusal.message : Refusal → String
  | .environment members =>
    "parse environment: env: " ++ String.intercalate "; " (members.map Misread.message)
  | .fault cause => cause.message

def documentLayer (files : Files) (here : Path.Place) (path : String) : Except Fault Layer :=
  match files.read here path with
  | .error cause => .error (.wrap "load YAML config" (.wrap "read file" cause))
  | .ok text =>
    match Document.parse? text with
    | none =>
      .error (.wrap "load YAML config" (.unreadable "YAML" "malformed document"))
    | some document => document.layer.mapError (.wrap "apply YAML config")

def load (env : Environment) (files : Files) (here : Path.Place) (overrides : Overrides) :
    Except Refusal Settings :=
  match env.misread with
  | m :: more => .error (.environment (m :: more))
  | [] =>
    match if overrides.document = "" then .ok {} else documentLayer files here overrides.document
    with
    | .error cause => .error (.fault cause)
    | .ok document =>
      let settings := overrides.layer.over (document.over (env.layer.over {}))
      match settings.flaw? with
      | some flaw => .error (.fault (.plain flaw))
      | none => .ok settings

end DocSite.Settings
