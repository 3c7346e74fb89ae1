import DocSite.Finding
import DocSite.Path

namespace DocSite

inductive Node
  | directory
  | file (content : String)
deriving DecidableEq, Repr

structure Files where
  nodes : List (Path.Place × Node)
deriving Repr

namespace Files

def empty : Files := ⟨[]⟩

def node? (files : Files) (place : Path.Place) : Option Node :=
  match place with
  | [] => some .directory
  | place => files.nodes.lookup place

def set (files : Files) (place : Path.Place) (node : Node) : Files :=
  ⟨(place, node) :: files.nodes.filter (·.1 != place)⟩

def makeDirectory (files : Files) (place : Path.Place) : Files :=
  (Path.upward place).foldl
    (fun files above => if (files.node? above).isSome then files else files.set above .directory)
    files

def write (files : Files) (place : Path.Place) (content : String) : Files :=
  (files.makeDirectory place.tail).set place (.file content)

def remove (files : Files) (place : Path.Place) : Files :=
  ⟨files.nodes.filter fun node => !place.isSuffixOf node.1⟩

def nameLimit : Nat := 255

def pathLimit : Nat := 4095

/-- Walks along segments from a place. Each step starts in a directory. -/
def walk (files : Files) (place : Path.Place) : List Path.Name → Except FileFault Node
  | [] =>
    match files.node? place with
    | some node => .ok node
    | none => .error .notFound
  | name :: rest =>
    match files.node? place with
    | none => .error .notFound
    | some (.file _) => .error .notDirectory
    | some .directory =>
      if nameLimit < (String.ofList name).utf8ByteSize then .error .nameTooLong
      else files.walk (Path.step place name) rest

def lookup (files : Files) (here : Path.Place) (path : String) : Except FileFault Node :=
  let chars := path.toList
  if chars.isEmpty then .error .notFound
  else if chars.contains '\x00' then .error .invalidName
  else if pathLimit < path.utf8ByteSize then .error .nameTooLong
  else files.walk (if Path.isAbsolute chars then [] else here) (Path.segments chars)

def exists? (files : Files) (here : Path.Place) (path : String) : Bool :=
  (files.lookup here path).toOption.isSome

def read (files : Files) (here : Path.Place) (path : String) : Except Fault String :=
  match files.lookup here path with
  | .ok (.file content) => .ok content
  | .ok .directory => .error (.file "read" path .isDirectory)
  | .error cause => .error (.file "open" path cause)

end Files

end DocSite
