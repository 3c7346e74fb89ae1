import DocSite.CommandLine.Run

namespace DocSite.Program

def pathsOfWord (word : String) : List String :=
  let chars := word.toList
  let attached := match chars.dropWhile (· != '=') with
    | _ :: value => [String.ofList value]
    | [] => []
  let expanded := match chars with
    | '@' :: name => [String.ofList name]
    | _ => []
  word :: attached ++ expanded

def variableNames : List String :=
  ["PORT", "SITECONFIG_DECLARATION", "SITECONFIG_WATCH", "SITECONFIG_WATCH_DEBOUNCE",
    "SITECONFIG_RELOAD_STRATEGY", "LOG_LEVEL", "RATE_LIMIT_RPS", "RATE_LIMIT_BURST"]

def declarationsIn (files : Files) : List String :=
  files.nodes.filterMap fun (_, node) =>
    match node with
    | .file text => (Settings.Document.parse? text).bind (·.declaration)
    | .directory => none

def logLine (entry : Log.Entry) : String :=
  Json.line (.object
    ([("level", .text entry.level.name), ("msg", .text entry.message)] ++
    entry.data.map fun (key, datum) =>
      (key, match datum with
        | .text s => .text s
        | .number n => .number (toString n))))

def readNode (path : String) : IO (Option Node) := do
  if ← ((← IO.currentDir) / path).isDir then return some .directory
  try
    return some (.file (← IO.FS.readFile path))
  catch _ => return none

def takeIn (here : Path.Place) (files : Files) (path : String) : IO Files := do
  let starts := if Path.isAbsolute path.toList then [here] else Path.upward here
  let mut files := files
  for dir in starts do
    let place := Path.resolve dir path.toList
    match ← readNode (String.ofList (Path.render place)) with
    | some (.file text) => files := files.write place text
    | some .directory => files := files.makeDirectory place
    | none => pure ()
  return files

def gather (here : Path.Place) (env : Settings.Environment) (words : List String) : IO Files := do
  let named := words.flatMap pathsOfWord ++ env.map (·.2) ++ [({} : Settings).declaration]
  let files ← named.foldlM (takeIn here) (Files.empty.makeDirectory here)
  (declarationsIn files).foldlM (takeIn here) files

def readEnvironment : IO Settings.Environment := do
  let values ← variableNames.mapM fun name => do return (name, ← IO.getEnv name)
  return values.filterMap fun (name, value) => value.map fun v => (name, v)

end DocSite.Program

open DocSite DocSite.Program in
def main (words : List String) : IO UInt32 := do
  let here := Path.follow [] (← IO.currentDir).toString.toList
  let env ← readEnvironment
  let files ← gather here env words
  let outcome := CommandLine.run ⟨env, files, here, .steady ⟨0⟩ 0⟩ words
  (← IO.getStdout).putStr outcome.stdout
  let errors ← IO.getStderr
  errors.putStr outcome.stderr
  for entry in outcome.log do
    errors.putStr (logLine entry)
  return outcome.exit.toUInt32
