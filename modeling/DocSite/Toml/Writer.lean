import DocSite.Text.Order
import DocSite.Value

namespace DocSite.Toml

def isBareKeyChar (c : Char) : Bool :=
  c.isAlphanum || c == '-' || c == '_'

def isForbidden (c : Char) : Bool :=
  (c.toNat < 0x20 && c != '\t' && c != '\n' && c != '\r') || c.toNat == 0x7f

def isLiteral (s : List Char) : Bool :=
  s.all fun c => c != '\'' && c != '\r' && c != '\n' && !isForbidden c

def upperHex (n : Nat) : Char := (Nat.digitChar n).toUpper

def escapeChar (c : Char) : List Char :=
  match c with
  | '\\' => ['\\', '\\']
  | '"' => ['\\', '"']
  | '\n' => ['\\', 'n']
  | '\r' => ['\\', 'r']
  | '\t' => ['\\', 't']
  | _ =>
    if c.toNat = 0x08 then ['\\', 'b']
    else if c.toNat = 0x0c then ['\\', 'f']
    else if isForbidden c then
      ['\\', 'u', '0', '0', upperHex (c.toNat / 16), upperHex (c.toNat % 16)]
    else [c]

def writeText (s : List Char) : List Char :=
  if isLiteral s then '\'' :: s ++ ['\''] else '"' :: s.flatMap escapeChar ++ ['"']

def writeKey (s : String) : List Char :=
  if s.toList.all isBareKeyChar && s != "" then s.toList else writeText s.toList

def writePath : List String → List Char
  | [] => []
  | [key] => writeKey key
  | key :: r => writeKey key ++ '.' :: writePath r

def separated (sep : List Char) : List (List Char) → List Char
  | [] => []
  | [p] => p
  | p :: r => p ++ sep ++ separated sep r

def writeScalar : Scalar → List Char
  | .bool b => if b then ['t', 'r', 'u', 'e'] else ['f', 'a', 'l', 's', 'e']
  | .text s => writeText s.toList
  | .named s => writeText s.toList
  | .integer _ i => (toString i).toList
  | .float x => x.text.toList
  | .single x => x.text.toList
  | .moment m => m.text.toList
  | .null => []

mutual

def writeInline : Value → List Char
  | .scalar s => writeScalar s
  | .sequence _ items => '[' :: separated [',', ' '] (inlineItems items) ++ [']']
  | .mapping _ entries =>
    '{' :: separated [',', ' '] ((Text.sortBy (fun a b => Text.before a.1 b.1)
      (inlineEntries entries)).map (·.2)) ++ ['}']

def inlineItems : List Value → List (List Char)
  | [] => []
  | v :: r => writeInline v :: inlineItems r

def inlineEntries : List (Scalar × Value) → List (String × List Char)
  | [] => []
  | (.text key, v) :: r =>
    (key, writeKey key ++ ' ' :: '=' :: ' ' :: writeInline v) :: inlineEntries r
  | _ :: r => inlineEntries r

end

inductive Written
  | line (text : List Char)
  | table (text : List Char)
deriving Repr

def Written.line? : Written → Option (List Char)
  | .line text => some text
  | .table _ => none

def Written.table? : Written → Option (List Char)
  | .line _ => none
  | .table text => some text

def assemble (entries : List (String × Written)) : List Char :=
  let sorted := (Text.sortBy (fun a b => Text.before a.1 b.1) entries).map (·.2)
  let lines := sorted.filterMap Written.line?
  let tables := sorted.filterMap Written.table?
  lines.flatMap (· ++ ['\n']) ++
    (if lines.isEmpty || tables.isEmpty then [] else ['\n']) ++ separated ['\n'] tables

def isMapping : Value → Bool
  | .mapping _ _ => true
  | _ => false

mutual

def writeBody (path : List String) : Value → List Char
  | .mapping _ entries => assemble (writeEntries path entries)
  | _ => []

def writeEntries (path : List String) : List (Scalar × Value) → List (String × Written)
  | [] => []
  | (.text key, v) :: r => (key, writeEntry (path ++ [key]) key v) :: writeEntries path r
  | _ :: r => writeEntries path r

/-- An entry of a table. Mappings become tables, and so do sequences of nothing but mappings. -/
def writeEntry (path : List String) (key : String) : Value → Written
  | .mapping _ entries =>
    .table ('[' :: writePath path ++ [']', '\n'] ++ assemble (writeEntries path entries))
  | .sequence kind items =>
    if !items.isEmpty && items.all isMapping then
      .table (separated ['\n'] (writeMembers path items))
    else .line (writeKey key ++ ' ' :: '=' :: ' ' :: writeInline (.sequence kind items))
  | .scalar s => .line (writeKey key ++ ' ' :: '=' :: ' ' :: writeScalar s)

def writeMembers (path : List String) : List Value → List (List Char)
  | [] => []
  | v :: r =>
    ('[' :: '[' :: writePath path ++ [']', ']', '\n'] ++ writeBody path v) :: writeMembers path r

end

mutual

/-- A value without the nulls in it, which the format cannot write. -/
def dropNulls : Value → Value
  | .scalar s => .scalar s
  | .sequence kind items => .sequence kind (dropNullItems items)
  | .mapping kind entries => .mapping kind (dropNullEntries entries)

def dropNullItems : List Value → List Value
  | [] => []
  | v :: r => if v.isNull then dropNullItems r else dropNulls v :: dropNullItems r

def dropNullEntries : List (Scalar × Value) → List (Scalar × Value)
  | [] => []
  | (key, v) :: r =>
    if v.isNull then dropNullEntries r else (key, dropNulls v) :: dropNullEntries r

end

def write (fields : Fields) : String :=
  String.ofList (writeBody [] (dropNulls (.record fields)))

end DocSite.Toml
