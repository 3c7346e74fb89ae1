import DocSite.CommandLine.Grammar
import DocSite.Settings.Load

namespace DocSite.CommandLine

inductive Invocation
  | help (command : Option Command)
  | unknownTopic (message : String)
  | serve (overrides : Settings.Overrides)
  | validate (file : String)
  | normalize (file format : String)
  | reconcile (previous next format : String)
deriving Repr

def lastName (path : String) : String :=
  let chars := Text.dropEndWhile (· == '/') path.toList
  if chars.isEmpty then path.toList.head?.elim "" String.singleton
  else String.ofList ((chars.reverse.takeWhile (· != '/')).reverse)

def fileFlaw? (files : Files) (here : Path.Place) (path : String) : Option String :=
  match files.lookup here path with
  | .ok (.file _) => none
  | .ok .directory => some ("'" ++ lastName path ++ "' is a directory")
  | .error .notFound => some ("path '" ++ path ++ "' does not exist")
  | .error cause => some ((Fault.file "stat" path cause).message)

def flagFlaw? (kind : FlagKind) (value : String) : Option String :=
  let number := match Settings.readFloat value with
    | .ok _ => none
    | .error message => some message
  match kind with
  | .toggle => none
  | .text => none
  | .choice options =>
    if options.contains value then none
    else some ("enum value must be one of " ++ String.intercalate "," options ++ ", got '" ++
      value ++ "'")
  | .float => number
  | .int => number

def elementFlaw? (files : Files) (here : Path.Place) :
    List String → List Element → Option String
  | _, [] => none
  | seen, .flag flag value :: rest =>
    if seen.contains flag.name then some ("flag '" ++ flag.name ++ "' cannot be repeated")
    else match flagFlaw? flag.kind value with
      | some flaw => some flaw
      | none => elementFlaw? files here (flag.name :: seen) rest
  | seen, .argument name value :: rest =>
    match if name = "command" then none else fileFlaw? files here value with
    | some flaw => some flaw
    | none => elementFlaw? files here seen rest

namespace Selection

def number? (s : Selection) (name : String) : Option Binary64 :=
  (s.flag? name).bind fun value => (Settings.readFloat value).toOption

def overrides (s : Selection) : Settings.Overrides where
  document := (s.flag? "config").getD ""
  port := s.flag? "port"
  declaration := s.flag? "declaration"
  watch := (s.flag? "watch").map (· == "true")
  reloadStrategy := s.flag? "reload-strategy"
  logLevel := s.flag? "log-level"
  rate := s.number? "rate-limit-rps"
  burst := (s.number? "rate-limit-burst").map Binary64.toInt64

def format (s : Selection) : String := (s.flag? "format").getD "json"

def arguments (s : Selection) (command : Command) : Except String (List String) :=
  command.arguments.mapM fun (name, _) =>
    match s.argument? name with
    | some value => .ok value
    | none => .error ("required argument '" ++ name ++ "' not provided")

def invocation (s : Selection) (files : Files) (here : Path.Place) (command : Command) :
    Except String Invocation :=
  match elementFlaw? files here [] s.elements with
  | some flaw => .error flaw
  | none => do
    match command, ← s.arguments command with
    | .validate, [file] => .ok (.validate file)
    | .normalize, [file] => .ok (.normalize file s.format)
    | .reconcile, [previous, next] => .ok (.reconcile previous next s.format)
    | _, _ => .ok (.serve s.overrides)

end Selection

def Invocation.ofTopics (files : Files) (here : Path.Place) (words : List String) : Invocation :=
  let topic := Selection.named (tokens files here words)
  match topic.flaw with
  | some flaw => .unknownTopic flaw
  | none => .help topic.command

/-- What a command line asks for, or what is wrong with it. The command for help comes before a
flaw, and the flag for help only where there is none. -/
def Invocation.ofWords (files : Files) (here : Path.Place) (words : List String) :
    Except String Invocation :=
  let given := tokens files here words
  let s := Selection.ofTokens given
  match s.command, s.flaw with
  | some .help, _ => .ok (.ofTopics files here s.topics)
  | _, some flaw => .error flaw
  | command, none =>
    if asksHelp s.elements then .ok (.help (Selection.named given).command)
    else match command with
      | some command => s.invocation files here command
      | none => .ok (.help none)

end DocSite.CommandLine
