import DocSite.CommandLine.Token

/-!
Commands with their flags and arguments, and how tokens are told apart by them. The first word that
names a command selects it; where there is none, or where a flag stands first that only another
command has, the default command is meant.
-/

namespace DocSite.CommandLine

inductive FlagKind
  | toggle
  | text
  | choice (options : List String)
  | float
  | int
deriving Repr, DecidableEq

structure Flag where
  name : String
  kind : FlagKind
  help : String
  default : String := ""
deriving Repr, DecidableEq

inductive Command
  | help
  | serve
  | validate
  | normalize
  | reconcile
deriving Repr, DecidableEq

def commonFlags : List Flag :=
  [⟨"help", .toggle,
    "Show context-sensitive help (also try --help-long and --help-man).", ""⟩]

namespace Command

def all : List Command := [help, serve, validate, normalize, reconcile]

def name : Command → String
  | .help => "help"
  | .serve => "serve"
  | .validate => "validate"
  | .normalize => "normalize"
  | .reconcile => "reconcile"

def named? (s : String) : Option Command := all.find? (·.name == s)

def about : Command → String
  | .help => "Show help."
  | .serve => "Load the site declaration, watch it and expose the handoff API"
  | .validate => "Build a declaration and report every error and warning"
  | .normalize => "Print the normalised form of a declaration"
  | .reconcile => "Print NEXT reconciled over PREVIOUS"

def formatFlag : Flag := ⟨"format", .choice ["json", "yaml", "toml"], "Output format", "json"⟩

def flags : Command → List Flag
  | .serve =>
    [⟨"config", .text, "Path to YAML configuration file", ""⟩,
      ⟨"port", .text, "HTTP port exposed by the service", ""⟩,
      ⟨"declaration", .text, "Path to the site declaration (yaml, json or toml)", ""⟩,
      ⟨"watch", .toggle, "Reload the declaration when the file changes", ""⟩,
      ⟨"reload-strategy", .choice ["replace", "reconcile"],
        "How reloads combine with the current snapshot", ""⟩,
      ⟨"log-level", .text, "Log level (debug, info, warn, error)", ""⟩,
      ⟨"rate-limit-rps", .float, "Requests per second allowed (set 0 to disable)", "-1"⟩,
      ⟨"rate-limit-burst", .int, "Burst capacity for rate limiter (set 0 to disable)", "-1"⟩]
  | .normalize => [formatFlag]
  | .reconcile => [formatFlag]
  | _ => []

def arguments : Command → List (String × String)
  | .validate => [("file", "Declaration file")]
  | .normalize => [("file", "Declaration file")]
  | .reconcile => [("previous", "Previous declaration file"), ("next", "Next declaration file")]
  | _ => []

end Command

inductive Element
  | flag (flag : Flag) (value : String)
  | argument (name value : String)
deriving Repr, DecidableEq

structure Selection where
  command : Option Command
  elements : List Element
  flaw : Option String := none
deriving Repr

def flagsOf (command : Option Command) : List Flag :=
  commonFlags ++ (command.map Command.flags).getD []

def findFlag? (flags : List Flag) (name : String) : Option (Flag × Bool) :=
  match flags.find? (·.name == name) with
  | some flag => some (flag, false)
  | none =>
    match name.toList with
    | 'n' :: 'o' :: '-' :: rest =>
      (flags.find? (·.name == String.ofList rest)).map fun flag => (flag, true)
    | _ => none

def asksHelp (elements : List Element) : Bool :=
  elements.any fun
    | .flag flag _ => flag.name == "help"
    | .argument _ _ => false

def commandFor (implied : Option Command) (command : Option Command) (elements : List Element)
    (name : String) : Option Command :=
  if command.isNone && !asksHelp elements && (findFlag? (flagsOf none) name).isNone then implied
  else command

/-- Reads tokens one after the other. `implied` is the command that is meant where none is named,
and `pending` are the arguments that the command still takes. -/
def select (implied : Option Command) (command : Option Command) (pending : List String)
    (elements : List Element) : List Token → Selection
  | [] => { command := if command.isNone && !asksHelp elements then implied else command, elements }
  | .failure message :: _ => { command, elements, flaw := some message }
  | .short name :: _ =>
    { command, elements, flaw := some ("unknown short flag '-" ++ name ++ "'") }
  | .long name :: rest =>
    let command := commandFor implied command elements name
    let unknown : Selection :=
      { command, elements, flaw := some ("unknown long flag '--" ++ name ++ "'") }
    match findFlag? (flagsOf command) name with
    | none => unknown
    | some (flag, unset) =>
      if flag.kind = .toggle then
        let value := if unset then "false" else "true"
        select implied command pending (elements ++ [.flag flag value]) rest
      else if unset then unknown
      else match rest with
        | .word value :: rest =>
          select implied command pending (elements ++ [.flag flag value]) rest
        | _ => { command, elements, flaw := some ("expected argument for flag '--" ++ name ++ "'") }
  | .word text :: rest =>
    match command, pending with
    | none, _ =>
      match Command.named? text with
      | some command =>
        select implied (some command) (command.arguments.map (·.1)) elements rest
      | none =>
        if implied.isNone || asksHelp elements then
          { command, elements, flaw := some ("expected command but got " ++ Text.quote text) }
        else { command := implied, elements, flaw := some ("unexpected " ++ text) }
    | some .help, _ =>
      select implied command pending (elements ++ [.argument "command" text]) rest
    | some command, name :: pending =>
      select implied (some command) pending (elements ++ [.argument name text]) rest
    | some _, [] => { command, elements, flaw := some ("unexpected " ++ text) }

def Selection.ofTokens (tokens : List Token) : Selection := select (some .serve) none [] [] tokens

def Selection.named (tokens : List Token) : Selection := select none none [] [] tokens

namespace Selection

def flag? (s : Selection) (name : String) : Option String :=
  s.elements.findSome? fun
    | .flag flag value => if flag.name = name then some value else none
    | .argument _ _ => none

def topics (s : Selection) : List String :=
  s.elements.filterMap fun
    | .argument _ value => some value
    | .flag _ _ => none

def argument? (s : Selection) (name : String) : Option String :=
  s.elements.findSome? fun
    | .argument n value => if n = name then some value else none
    | .flag _ _ => none

end Selection

end DocSite.CommandLine
