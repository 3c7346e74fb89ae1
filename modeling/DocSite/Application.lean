import DocSite.Decode
import DocSite.Http.Service
import DocSite.Settings.Basic

/-!
The application: a service whose configuration is declared in a file. The file is found by looking
upward from the working directory; it is loaded once at the start, and loaded again on request or
when it changes. A load that goes wrong leaves the service as it was.
-/

namespace DocSite

/-- The strategy of a name. Everything but the name for reconciling means replacing. -/
def Strategy.ofName (s : String) : Strategy :=
  if s = "reconcile" then .reconcile else .replace

def Settings.address (settings : Settings) : String :=
  if settings.port.toList.contains ':' then settings.port else ":" ++ settings.port

def Path.join (dir : Path.Place) (path : String) : String :=
  String.ofList (Path.render (Path.follow dir path.toList))

/-- The path of a declaration. An absolute path has to lead to something; any other one is tried
from the working directory and from every directory above it, the nearest first. -/
def locate (files : Files) (here : Path.Place) (path : String) : Except Fault String :=
  if Path.isAbsolute path.toList then
    match files.lookup here path with
    | .ok _ => .ok path
    | .error cause => .error (.file "stat" path cause)
  else
    match (Path.upward here).find? fun dir => files.exists? here (Path.join dir path) with
    | some dir => .ok (Path.join dir path)
    | none => .error (.plain ("unable to locate " ++ path))

structure Application where
  settings : Settings
  here : Path.Place
  path : String
  service : Http.Service
  parse : Parser := Format.parse?

namespace Application

/-- The service that settings ask for, with nothing in its store, and whatever its limiter will
decide if it has one. -/
def newService (settings : Settings) (clock : Clock) (decisions : List Bool) : Http.Service :=
  let service : Http.Service :=
    { repository := .working (.new clock)
      clock
      limiter := Http.Limiter.ofRate settings.rate settings.burst decisions
      logsRequests := settings.requestLogging }
  if 0 < settings.maxBodyBytes then { service with bodyLimit := settings.maxBodyBytes.toNat }
  else service

def load (app : Application) (files : Files) (strategy : Strategy) :
    Except Trouble Snapshot × List Log.Entry × Application :=
  match loadDeclaration files app.here app.path app.parse with
  | .error fault => (.error (.fault fault), [], app)
  | .ok fields =>
    match buildLogged fields with
    | (.error fault, log) => (.error (.fault fault), log, app)
    | (.ok report, log) =>
      let (result, repository) :=
        app.service.repository.put strategy ("file:" ++ app.path) report.site
      (result, log, { app with service := { app.service with repository } })

/-- Starts an application. What comes first is always put in place as it is. What the limiter will
decide depends on when requests come, and what documents hold on how they are read, so both are
given. -/
def start (settings : Settings) (files : Files) (here : Path.Place) (clock : Clock)
    (decisions : List Bool := Http.Limiter.unfilled settings.burst)
    (parse : Parser := Format.parse?) : Except Fault Application × List Log.Entry :=
  match locate files here settings.declaration with
  | .error fault => (.error (.wrap "failed to locate site declaration" fault), [])
  | .ok path =>
    let service := newService settings clock decisions
    let app : Application := ⟨settings, here, path, service, parse⟩
    match app.load files .replace with
    | (.ok snapshot, log, app) =>
      (.ok app, log ++ [⟨.info, "site configuration loaded",
        [("path", .text path), ("version", .number snapshot.version)]⟩])
    | (.error (.fault fault), log, _) =>
      (.error (.wrap "failed to load site declaration" fault), log)
    | (.error trouble, log, _) =>
      (.error (.wrap "failed to load site declaration" (.plain trouble.message)), log)

def reload (app : Application) (files : Files) :
    Except Trouble Snapshot × List Log.Entry × Application :=
  app.load files (.ofName app.settings.reloadStrategy)

def current (app : Application) : Except Trouble Snapshot :=
  app.service.repository.current

def serve (app : Application) (fresh : String) (request : Http.Request) :
    Http.Response × List Log.Entry × Application :=
  let exchange := app.service.serveRoot fresh request
  (exchange.response, exchange.log, { app with service := exchange.service })

def place (app : Application) : Path.Place := Path.resolve app.here app.path.toList

def follow (app : Application) (files : Files) : List Log.Entry × Application :=
  match app.reload files with
  | (.ok snapshot, log, app) =>
    (log ++ [⟨.info, "site configuration reloaded",
      [("path", .text app.path), ("strategy", .text app.settings.reloadStrategy),
        ("version", .number snapshot.version)]⟩], app)
  | (.error trouble, log, app) =>
    (log ++ [⟨.error, "site configuration reload rejected, keeping current snapshot",
      [("path", .text app.path), ("error", .text trouble.message)]⟩], app)

structure Watch where
  files : Files
  app : Application
  log : List Log.Entry
  seen : List (Except Trouble Snapshot)

def Watch.change (w : Watch) (place : Path.Place) (content : String) : Watch :=
  let files := w.files.write place content
  if place = w.app.place then
    let (log, app) := w.app.follow files
    ⟨files, app, w.log ++ log, w.seen ++ [app.current]⟩
  else { w with files }

def beginWatch (app : Application) (files : Files) : Except Fault Watch :=
  let dir := String.ofList (Path.render app.place.tail)
  match files.lookup app.here dir with
  | .error cause => .error (.wrap ("watch " ++ dir) (.system cause))
  | .ok _ =>
    .ok ⟨files, app,
      [⟨.info, "watching declaration",
        [("path", .text (String.ofList (Path.render app.place)))]⟩], []⟩

def watch (app : Application) (files : Files) (changes : List (Path.Place × String)) :
    Except Fault Watch :=
  (app.beginWatch files).map fun w => changes.foldl (fun w c => w.change c.1 c.2) w

end Application

end DocSite
