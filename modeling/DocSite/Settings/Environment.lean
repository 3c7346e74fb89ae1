import DocSite.Number.Reader
import DocSite.Settings.Basic

namespace DocSite.Settings

abbrev Environment := List (String × String)

structure Misread where
  setting : String
  kind : String
  detail : String
deriving Repr, DecidableEq

def Misread.message (m : Misread) : String :=
  "parse error on field " ++ Text.quote m.setting ++ " of type " ++ Text.quote m.kind ++ ": " ++
    m.detail

def Environment.value? (env : Environment) (name : String) : Option String :=
  given (env.lookup name)

def boolSpellings : List (String × Bool) :=
  [("1", true), ("t", true), ("T", true), ("TRUE", true), ("true", true), ("True", true),
    ("0", false), ("f", false), ("F", false), ("FALSE", false), ("false", false),
    ("False", false)]

def readFailure (step text : String) (fault : Number.Fault) : String :=
  step ++ ": parsing " ++ Text.quote text ++ ": " ++ fault.message

def readBool (s : String) : Except String Bool :=
  match boolSpellings.lookup s with
  | some b => .ok b
  | none => .error (readFailure "strconv.ParseBool" s .form)

def readFloat (s : String) : Except String Binary64 :=
  (Number.readFloat s.toList).mapError (readFailure "strconv.ParseFloat" s)

def readInt (s : String) : Except String Int :=
  match Number.readSigned? (Number.readNat? 10) s.toList with
  | none => .error (readFailure "strconv.ParseInt" s .form)
  | some i =>
    if Number.fitsSigned 32 i then .ok i
    else .error (readFailure "strconv.ParseInt" s .range)

def readDuration (s : String) : Except String Duration :=
  (Duration.read s).mapError fun fault => "unable to parse duration: " ++ fault.message s

namespace Environment

def reading (env : Environment) (name setting kind : String) (read : String → Except String α) :
    Except Misread (Option α) :=
  match env.value? name with
  | none => .ok none
  | some text =>
    match read text with
    | .ok value => .ok (some value)
    | .error detail => .error ⟨setting, kind, detail⟩

def watch (env : Environment) : Except Misread (Option Bool) :=
  env.reading "SITECONFIG_WATCH" "Watch" "*bool" readBool

def watchDebounce (env : Environment) : Except Misread (Option Duration) :=
  env.reading "SITECONFIG_WATCH_DEBOUNCE" "WatchDebounce" "*time.Duration" readDuration

def rate (env : Environment) : Except Misread (Option Binary64) :=
  env.reading "RATE_LIMIT_RPS" "RateLimitRPS" "*float64" readFloat

def burst (env : Environment) : Except Misread (Option Int) :=
  env.reading "RATE_LIMIT_BURST" "RateLimitBurst" "*int" readInt

def misread (env : Environment) : List Misread :=
  let problem {α : Type} : Except Misread α → List Misread
    | .ok _ => []
    | .error m => [m]
  problem env.watch ++ problem env.watchDebounce ++ problem env.rate ++ problem env.burst

def layer (env : Environment) : Layer where
  port := trimmed (env.lookup "PORT")
  declaration := trimmed (env.lookup "SITECONFIG_DECLARATION")
  watch := env.watch.toOption.join
  watchDebounce := env.watchDebounce.toOption.join
  reloadStrategy := trimmed (env.lookup "SITECONFIG_RELOAD_STRATEGY")
  logLevel := trimmed (env.lookup "LOG_LEVEL")
  rate := env.rate.toOption.join
  burst := env.burst.toOption.join

end Environment

end DocSite.Settings
