import DocSite.Application
import DocSite.CommandLine.Invocation
import DocSite.CommandLine.Usage
import DocSite.Encode

namespace DocSite.CommandLine

structure Outcome where
  exit : Nat
  stdout : String := ""
  stderr : String := ""
  log : List Log.Entry := []
deriving Repr

structure World where
  env : Settings.Environment
  files : Files
  here : Path.Place
  clock : Clock

def complain (message : String) (stdout : String) : Outcome :=
  { exit := 1, stdout, stderr := programName ++ ": error: " ++ message ++ "\n" }

def breakOff (message : String) : Outcome := { exit := 2, stderr := "panic: " ++ message ++ "\n" }

def findingLine (f : Finding) : String :=
  "error   " ++ padded 16 f.kind ++ " " ++ f.message ++ "\n"

def validate (world : World) (path : String) : Outcome :=
  match loadDeclaration world.files world.here path with
  | .error fault => complain ("validate: " ++ fault.message) ""
  | .ok fields =>
    match build fields with
    | .error fault =>
      complain ("validate: " ++ (Fault.wrap path .invalidConfig).message)
        (String.join (fault.findings.map findingLine))
    | .ok report =>
      { exit := 0
        stdout := String.join (report.warnings.map fun w => "warning " ++ w.text ++ "\n") ++
          path ++ ": ok (" ++ toString report.warnings.length ++ " warnings)\n" }

def buildFile (world : World) (path : String) : Except Fault Site := do
  let fields ← loadDeclaration world.files world.here path
  match build fields with
  | .ok report => .ok report.site
  | .error fault => .error (.wrap path fault)

def encode (site : Site) (format : String) : Except Fault String := do
  let format ← Format.ofName format
  return site.encode format

def printOr (command : Command) (result : Except Fault String) : Outcome :=
  match result with
  | .ok text => { exit := 0, stdout := text }
  | .error fault => complain (command.name ++ ": " ++ fault.message) ""

def normalize (world : World) (path format : String) : Outcome :=
  printOr .normalize do
    let site ← buildFile world path
    encode site format

def reconcile (world : World) (previous next format : String) : Outcome :=
  printOr .reconcile do
    let older ← buildFile world previous
    let newer ← buildFile world next
    encode (older.reconcile newer) format

def watchLog (world : World) (app : Application) : List Log.Entry :=
  match app.beginWatch world.files with
  | .ok w => w.log
  | .error fault => [⟨.error, "declaration watcher stopped", [("error", .text fault.message)]⟩]

def serve (world : World) (overrides : Settings.Overrides) : Outcome :=
  match Settings.load world.env world.files world.here overrides with
  | .error refusal => breakOff ("failed to load configuration: " ++ refusal.message)
  | .ok settings =>
    match Log.Level.read settings.logLevel with
    | .error fault => breakOff ("failed to initialize logger: " ++ fault.message)
    | .ok level =>
      match Application.start settings world.files world.here world.clock with
      | (.error fault, log) =>
        { exit := 1
          log := Log.atLeast level (log ++ [⟨.fatal, "failed to initialize application",
            [("error", .text fault.message)]⟩]) }
      | (.ok app, log) =>
        { exit := 0
          log := Log.atLeast level (log ++
            (if settings.watch then watchLog world app else []) ++
            [⟨.info, "server listening", [("addr", .text settings.address)]⟩,
              ⟨.info, "shutting down server", []⟩]) }

def Invocation.run (world : World) : Invocation → Outcome
  | .help command => { exit := 0, stderr := usage command }
  | .unknownTopic message => complain message ""
  | .serve overrides => CommandLine.serve world overrides
  | .validate file => CommandLine.validate world file
  | .normalize file format => CommandLine.normalize world file format
  | .reconcile previous next format => CommandLine.reconcile world previous next format

def run (world : World) (words : List String) : Outcome :=
  match Invocation.ofWords world.files world.here words with
  | .ok invocation => invocation.run world
  | .error message => complain (message ++ ", try --help") ""

end DocSite.CommandLine
