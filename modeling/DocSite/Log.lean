import DocSite.Schema.Build
import DocSite.Text.Case

namespace DocSite.Log

inductive Level
  | debug
  | info
  | warn
  | error
  | dpanic
  | panic
  | fatal
deriving DecidableEq, Repr

namespace Level

def all : List Level := [debug, info, warn, error, dpanic, panic, fatal]

def name : Level → String
  | .debug => "debug"
  | .info => "info"
  | .warn => "warn"
  | .error => "error"
  | .dpanic => "dpanic"
  | .panic => "panic"
  | .fatal => "fatal"

def rank (level : Level) : Nat := all.idxOf level

def read (s : String) : Except Fault Level :=
  if s = "" then .ok .info
  else match all.find? (·.name == Text.lower s) with
    | some level => .ok level
    | none =>
      .error (.plain ("parse log level " ++ Text.quote s ++ ": unrecognized level: " ++
        Text.quote s))

end Level

inductive Datum
  | text (s : String)
  | number (n : Nat)
deriving DecidableEq, Repr

structure Entry where
  level : Level
  message : String
  data : List (String × Datum)
deriving DecidableEq, Repr

def atLeast (level : Level) (entries : List Entry) : List Entry :=
  entries.filter fun e => level.rank ≤ e.level.rank

end DocSite.Log

namespace DocSite

def Report.log (report : Report) : List Log.Entry :=
  (report.warnings.map fun w =>
    ⟨.warn, "site config warning", [("path", .text w.path), ("message", .text w.message)]⟩) ++
  [⟨.debug, "site config built",
    [("title", .text report.site.title),
      ("nav_items", .number (report.site.theme.nav.getD []).length),
      ("sidebar_groups", .number (report.site.theme.sidebar.getD []).length),
      ("warnings", .number report.warnings.length)]⟩]

def buildLogged (declaration : Fields) : Except Fault Report × List Log.Entry :=
  match build declaration with
  | .ok report => (.ok report, report.log)
  | .error fault => (.error fault, [])

end DocSite
