import DocSite.Number.Reader
import DocSite.Value

namespace DocSite

inductive Json
  | null
  | bool (b : Bool)
  | number (digits : String)
  | text (s : String)
  | array (items : List Json)
  | object (fields : List (String × Json))
deriving Repr

namespace Json

mutual

/-- The value of a document: numbers are floating-point numbers, and of two fields with one key the
later counts. There is none when a number is out of range. -/
def toValue? : Json → Option Value
  | .null => some .null
  | .bool b => some (.bool b)
  | .number digits => (Number.readFloat digits.toList).toOption.map fun x => .scalar (.float x)
  | .text s => some (.text s)
  | .array items => (toValues? items).map .list
  | .object fields => (toFields? fields).map .record

def toValues? : List Json → Option (List Value)
  | [] => some []
  | j :: r => do
    let v ← toValue? j
    let rest ← toValues? r
    return v :: rest

def toFields? : List (String × Json) → Option Fields
  | [] => some []
  | (key, j) :: r => do
    let v ← toValue? j
    let rest ← toFields? r
    return if rest.any (·.1 == key) then rest else (key, v) :: rest

end

def toDeclaration? : Json → Option Fields
  | .null => some []
  | .object fields => toFields? fields
  | _ => none

def ofScalar : Scalar → Json
  | .null => .null
  | .bool b => .bool b
  | .text s => .text s
  | .named s => .text s
  | .integer _ i => .number (toString i)
  | .float x => .number x.text
  | .single x => .number x.text
  | .moment m => .text m.text

def keyText : Scalar → String
  | .text s => s
  | .named s => s
  | .integer _ i => toString i
  | .bool b => if b then "true" else "false"
  | .null => "null"
  | .float x => x.text
  | .single x => x.text
  | .moment m => m.text

mutual

def ofValue : Value → Json
  | .scalar s => ofScalar s
  | .sequence _ items => .array (ofValues items)
  | .mapping _ entries => .object (ofEntries entries)

def ofValues : List Value → List Json
  | [] => []
  | v :: r => ofValue v :: ofValues r

def ofEntries : List (Scalar × Value) → List (String × Json)
  | [] => []
  | (key, v) :: r => (keyText key, ofValue v) :: ofEntries r

end

def ofFields (fields : Fields) : Json := ofValue (.record fields)

end Json

end DocSite
