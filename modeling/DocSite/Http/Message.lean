import DocSite.Link.Reference
import DocSite.Path
import DocSite.Text.Case

namespace DocSite.Http

structure Request where
  method : String
  target : String
  headers : List (String × String)
  body : String
deriving DecidableEq, Repr

abbrev Headers := List (String × String)

structure Response where
  status : Nat
  headers : Headers
  body : String
deriving DecidableEq, Repr

def Request.header (request : Request) (name : String) : String :=
  match request.headers.find? fun h => Text.lower h.1 == Text.lower name with
  | some (_, value) => value
  | none => ""

structure Target where
  path : List Char
  query : List Char
deriving DecidableEq, Repr

def unescapedBytes : List Char → List UInt8
  | [] => []
  | '%' :: a :: b :: r =>
    match Link.hexValue? a, Link.hexValue? b with
    | some h, some l => UInt8.ofNat (16 * h + l) :: unescapedBytes r
    | _, _ => 0x25 :: unescapedBytes (a :: b :: r)
  | c :: r => String.utf8EncodeChar c ++ unescapedBytes r

/-- A text with its escapes read; one whose bytes are no text stays as it is. -/
def unescape (s : List Char) : String :=
  match String.fromUTF8? ⟨(unescapedBytes s).toArray⟩ with
  | some text => text
  | none => String.ofList s

def Target.ofText (target : String) : Target :=
  let chars := target.toList
  let (scheme, rest) := (Link.scheme? chars).getD ([], chars)
  let (body, query) := Link.cut '?' rest
  let path := match scheme, body with
    | _ :: _, '/' :: '/' :: after => after.dropWhile (· != '/')
    | _ :: _, '/' :: _ => body
    | _ :: _, _ => []
    | [], _ => body
  ⟨path, query.getD []⟩

def Request.path (request : Request) : String :=
  unescape (Target.ofText request.target).path

def Target.segments (target : Target) : List String :=
  (Path.segments target.path).tail.map unescape

def Target.cleanPath (target : Target) : List Char :=
  let clean := Path.cleanAbsolute target.path
  if target.path.getLast? = some '/' ∧ clean ≠ ['/'] then clean ++ ['/'] else clean

def Target.withPath (target : Target) (path : List Char) : String :=
  String.ofList (if target.query.isEmpty then path else path ++ '?' :: target.query)

end DocSite.Http
