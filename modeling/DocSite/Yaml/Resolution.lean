import DocSite.Number.Reader
import DocSite.Value
import DocSite.Yaml.Timestamp

namespace DocSite.Yaml

def words : List (String × Scalar) :=
  [("true", .bool true), ("True", .bool true), ("TRUE", .bool true),
    ("false", .bool false), ("False", .bool false), ("FALSE", .bool false),
    ("", .null), ("~", .null), ("null", .null), ("Null", .null), ("NULL", .null),
    (".nan", .float .nan), (".NaN", .float .nan), (".NAN", .float .nan),
    (".inf", .float (.infinite false)), (".Inf", .float (.infinite false)),
    (".INF", .float (.infinite false)), ("+.inf", .float (.infinite false)),
    ("+.Inf", .float (.infinite false)), ("+.INF", .float (.infinite false)),
    ("-.inf", .float (.infinite true)), ("-.Inf", .float (.infinite true)),
    ("-.INF", .float (.infinite true))]

def integerScalar? (signed : Option Int) (unsigned : Option Nat) : Option Scalar :=
  match signed.filter (Number.fitsSigned 64) with
  | some i => some (.integer .native i)
  | none =>
    match unsigned.filter (· < Nat.pow 2 64) with
    | some n => some (.integer .unsigned n)
    | none => none

def prefixedInteger? (s : List Char) : Option Scalar :=
  integerScalar? (Number.readSigned? Number.readPrefixed? s) (Number.readPrefixed? s)

def basedInteger? (base : Nat) (s : List Char) : Option Scalar :=
  integerScalar? (Number.readSigned? (Number.readNat? base) s) (Number.readNat? base s)

def markedInteger? : List Char → Option Scalar
  | '0' :: 'b' :: r => basedInteger? 2 r
  | '-' :: '0' :: 'b' :: r => basedInteger? 2 ('-' :: r)
  | '0' :: 'o' :: r => basedInteger? 8 r
  | '-' :: '0' :: 'o' :: r => basedInteger? 8 ('-' :: r)
  | _ => none

def dropSign : List Char → List Char
  | '+' :: r => r
  | '-' :: r => r
  | s => s

def isExponent : List Char → Bool
  | [] => true
  | e :: r =>
    (e == 'e' || e == 'E') && !(dropSign r).isEmpty && (dropSign r).all Char.isDigit

def isDecimalShape (s : List Char) : Bool :=
  let s := dropSign s
  let whole := s.takeWhile Char.isDigit
  match s.dropWhile Char.isDigit with
  | '.' :: r =>
    !(whole.isEmpty && (r.takeWhile Char.isDigit).isEmpty) && isExponent (r.dropWhile Char.isDigit)
  | r => !whole.isEmpty && isExponent r

def decimal? (s : List Char) : Option Scalar :=
  if isDecimalShape s then (Number.readFloat s).toOption.map .float else none

def numeric? (timestamps : Bool) (s : List Char) : Option Scalar :=
  let plain := s.filter (· != '_')
  (if timestamps then (timestamp? s).map .moment else none) <|>
    prefixedInteger? plain <|> decimal? plain <|> markedInteger? plain

def resolveWith (timestamps : Bool) (s : String) : Scalar :=
  match words.lookup s with
  | some scalar => scalar
  | none =>
    match s.toList with
    | [] => .null
    | c :: _ =>
      if c = '.' then
        match Number.readFloat s.toList with
        | .ok x => .float x
        | .error _ => .text s
      else if c.isDigit || c == '+' || c == '-' then (numeric? timestamps s.toList).getD (.text s)
      else .text s

def resolve (s : String) : Scalar := resolveWith true s

def olderBooleans : List String :=
  ["y", "Y", "yes", "Yes", "YES", "on", "On", "ON", "n", "N", "no", "No", "NO", "off", "Off", "OFF"]

def isSexagesimalTail : List Char → Bool
  | [] => true
  | '.' :: r => r.all fun c => c.isDigit || c == '_'
  | ':' :: a :: b :: r =>
    if a.isDigit && b.isDigit then ('0' ≤ a && a ≤ '5') && isSexagesimalTail r
    else a.isDigit && isSexagesimalTail (b :: r)
  | [':', a] => a.isDigit
  | _ => false

def isSexagesimal (s : List Char) : Bool :=
  match dropSign s with
  | [] => false
  | c :: r =>
    let tail := r.dropWhile fun c => c.isDigit || c == '_'
    c.isDigit && tail.head? == some ':' && isSexagesimalTail tail

/-- Whether a text, written plainly, is read as that text, by older readers too. -/
def readsAsText (s : String) : Bool :=
  resolve s == .text s && !isSexagesimal s.toList && !olderBooleans.contains s

end DocSite.Yaml
