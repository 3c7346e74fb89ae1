import DocSite.Finding
import DocSite.Text.Blank
import DocSite.Text.Case

namespace DocSite

inductive Format
  | yaml
  | json
  | toml
deriving DecidableEq, Repr

namespace Format

def name : Format → String
  | .yaml => "yaml"
  | .json => "json"
  | .toml => "toml"

def named? (s : String) : Option Format :=
  [yaml, json, toml].find? (·.name == s)

def unknown (s : String) : Fault := .unsupportedFormat (Text.quote s)

def ofName (s : String) : Except Fault Format :=
  let word := Text.lower (Text.trim s)
  match if word = "yml" then some .yaml else named? word with
  | some format => .ok format
  | none => .error (unknown s)

def extension (path : List Char) : List Char :=
  let last := (path.reverse.takeWhile (· != '/')).reverse
  if last.contains '.' then (last.reverse.takeWhile (· != '.')).reverse else []

def ofPath (path : String) : Except Fault Format :=
  match extension path.toList with
  | [] => .error (.unsupportedFormat (path ++ " has no extension"))
  | ext => ofName (String.ofList ext)

end Format

end DocSite
