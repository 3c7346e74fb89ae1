import DocSite.CommandLine.Grammar

namespace DocSite.CommandLine

def programName : String := "siteconfig"

def programAbout : String := "Documentation site configuration builder and handoff service"

def usageWidth : Nat := 80

def wrapWords (width : Nat) (line : String) : List String → List String
  | [] => [line]
  | word :: rest =>
    if line = "" then wrapWords width word rest
    else if line.length + 1 + word.length ≤ width then
      wrapWords width (line ++ " " ++ word) rest
    else line :: wrapWords width word rest

def wrap (width : Nat) (text : String) : List String := wrapWords width "" (text.splitOn " ")

def spaces (n : Nat) : String := String.ofList (List.replicate n ' ')

def padded (width : Nat) (s : String) : String := s ++ spaces (width - s.length)

def twoColumns (rows : List (String × String)) : String :=
  let narrow := (rows.map (·.1.length)).filter (· < 30)
  let first := narrow.foldl max 0
  let margin := spaces (2 + first + 2)
  String.join (rows.map fun (name, text) =>
    let body := String.intercalate ("\n" ++ margin) (wrap (usageWidth - first - 4) text)
    let head := "  " ++ padded first name ++ "  "
    if 30 ≤ name.length then head ++ "\n" ++ margin ++ body ++ "\n" else head ++ body ++ "\n")

def Flag.usage (flag : Flag) : String :=
  match flag.kind with
  | .toggle => "--[no-]" ++ flag.name
  | _ =>
    "--" ++ flag.name ++ "=" ++ if flag.default = "" then flag.name.toUpper else flag.default

def Command.summary (command : Command) : String :=
  match command with
  | .help => " [<command>...]"
  | command =>
    (if command.flags.isEmpty then "" else " [<flags>]") ++
      String.join (command.arguments.map fun (name, _) => " <" ++ name ++ ">")

def Command.argumentRows (command : Command) : List (String × String) :=
  match command with
  | .help => [("[<command>]", "Show help on command.")]
  | command => command.arguments.map fun (name, about) => ("<" ++ name ++ ">", about)

def commandUsage (command : Command) : String :=
  "usage: " ++ programName ++ " " ++ command.name ++ command.summary ++ "\n\n" ++ command.about ++
    "\n\n\nFlags:\n" ++
    twoColumns ((commonFlags ++ command.flags).map fun flag => (flag.usage, flag.help)) ++ "\n" ++
    if command.argumentRows.isEmpty then ""
    else "Args:\n" ++ twoColumns command.argumentRows ++ "\n"

def programUsage : String :=
  "usage: " ++ programName ++ " [<flags>] <command> [<args> ...]\n\n" ++ programAbout ++
    "\n\n\nFlags:\n" ++ twoColumns (commonFlags.map fun flag => (flag.usage, flag.help)) ++
    "\nCommands:\n" ++
    String.join (Command.all.map fun command =>
      command.name ++ (if command = .serve then "*" else "") ++ command.summary ++ "\n    " ++
        command.about ++ "\n\n")

def usage : Option Command → String
  | some command => commandUsage command
  | none => programUsage

end DocSite.CommandLine
