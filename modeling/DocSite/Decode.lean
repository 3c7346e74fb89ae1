import DocSite.Files
import DocSite.Format
import DocSite.Json.Reader
import DocSite.Toml.Reader
import DocSite.Yaml.Reader

namespace DocSite

abbrev Parser := Format → List Char → Option Fields

def Format.parse? (format : Format) (text : List Char) : Option Fields :=
  match format with
  | .json => (Json.parse? text).bind Json.toDeclaration?
  | .yaml => Yaml.parse? text
  | .toml => Toml.parse? text

/-- The declaration in a document whose format is named. A blank document holds an empty declaration
in every format, known or not. -/
def decodeNamed (format : String) (text : String) (parse : Parser := Format.parse?) :
    Except Fault Fields :=
  if Text.isBlankText text then .ok []
  else match Format.named? format with
    | none => .error (Format.unknown format)
    | some format =>
      match parse format text.toList with
      | some fields => .ok fields
      | none => .error (.unreadable format.name "malformed document")

def Format.decode (format : Format) (text : String) (parse : Parser := Format.parse?) :
    Except Fault Fields :=
  decodeNamed format.name text parse

/-- The declaration in a file. The extension tells its format before the file is read. -/
def loadDeclaration (files : Files) (here : Path.Place) (path : String)
    (parse : Parser := Format.parse?) : Except Fault Fields := do
  let format ← Format.ofPath path
  let text ← (files.read here path).mapError (.wrap ("read declaration " ++ path))
  (format.decode text parse).mapError (.wrap ("decode declaration " ++ path))

end DocSite
