import DocSite.Number.Binary64
import DocSite.Yaml.Resolution

namespace DocSite.Yaml

/-- A node of a document. The tag is there when one is written that says something, in short form.
-/
inductive Node
  | scalar (tag : Option String) (plain : Bool) (text : String)
  | sequence (tag : Option String) (items : List Node)
  | mapping (tag : Option String) (entries : List (Node × Node))
  | alias (name : String) (target : Option Node)
deriving Repr

def tagOf : Scalar → String
  | .null => "!!null"
  | .bool _ => "!!bool"
  | .text _ => "!!str"
  | .named _ => "!!str"
  | .integer _ _ => "!!int"
  | .float _ => "!!float"
  | .single _ => "!!float"
  | .moment _ => "!!timestamp"

def base64Value? (c : Char) : Option Nat :=
  if 'A' ≤ c ∧ c ≤ 'Z' then some (c.toNat - 65)
  else if 'a' ≤ c ∧ c ≤ 'z' then some (c.toNat - 97 + 26)
  else if '0' ≤ c ∧ c ≤ '9' then some (c.toNat - 48 + 52)
  else if c = '+' then some 62
  else if c = '/' then some 63
  else none

def base64Bytes? : List Char → Option (List Nat)
  | [] => some []
  | [a, b, '=', '='] => do
    let n := 64 * (← base64Value? a) + (← base64Value? b)
    some [n / 16]
  | [a, b, c, '='] => do
    let n := 4096 * (← base64Value? a) + 64 * (← base64Value? b) + (← base64Value? c)
    some [n / 1024, n / 4 % 256]
  | a :: b :: c :: d :: r => do
    let n := 262144 * (← base64Value? a) + 4096 * (← base64Value? b) + 64 * (← base64Value? c) +
      (← base64Value? d)
    (base64Bytes? r).map fun more => n / 65536 :: n / 256 % 256 :: n % 256 :: more
  | _ => none

def charOfBytes? (bytes : List Nat) : Option (Char × Nat) :=
  [1, 2, 3, 4].findSome? fun n =>
    match (String.fromUTF8? ⟨((bytes.take n).map Nat.toUInt8).toArray⟩).map String.toList with
    | some [c] => some (c, n)
    | _ => none

/-- Bytes as characters. A text holds no other bytes than those of characters; any byte that belongs
to none becomes the mark that would be written for it. -/
def charsOfBytes : Nat → List Nat → List Char
  | 0, _ => []
  | _ + 1, [] => []
  | fuel + 1, b :: r =>
    match charOfBytes? (b :: r) with
    | some (c, n) => c :: charsOfBytes fuel ((b :: r).drop n)
    | none => '\uFFFD' :: charsOfBytes fuel r

def textOfBytes (bytes : List Nat) : String := String.ofList (charsOfBytes bytes.length bytes)

def binaryText? (s : String) : Option String :=
  (base64Bytes? (s.toList.filter fun c => c != '\n' && c != '\r')).map textOfBytes

/-- What a scalar stands for under a tag that allows a choice. An integer may be a floating-point
number; otherwise the text must have the tag by itself. -/
def scalarAs? (tag text : String) : Option Scalar :=
  let found := resolveWith (tag == "!!timestamp") text
  if tagOf found = tag then some found
  else match tag, found with
    | "!!float", .integer .native i => some (.float (.ofInt i))
    | _, _ => none

def resolvableTags : List String := ["!!bool", "!!int", "!!float", "!!null", "!!timestamp"]

def scalarOf? (tag : Option String) (plain : Bool) (text : String) : Option Scalar :=
  match tag with
  | none => some (if plain then resolve text else .text text)
  | some tag =>
    if resolvableTags.contains tag then scalarAs? tag text
    else if tag = "!!binary" then (binaryText? text).map .text
    else some (.text text)

namespace Node

def isMergeKey : Node → Bool
  | .scalar tag plain text => text == "<<" && ((tag.isNone && plain) || tag == some "!!merge")
  | _ => false

def shortTag : Node → String
  | .scalar (some tag) _ _ => tag
  | .scalar none plain text =>
    if !plain then "!!str" else if text = "<<" then "!!merge" else tagOf (resolve text)
  | .sequence tag _ => tag.getD "!!seq"
  | .mapping tag _ => tag.getD "!!map"
  | .alias _ (some target) => target.shortTag
  | .alias _ none => ""

/-- What tells the keys of a mapping apart: their form and their text. -/
def identity : Node → Nat × String
  | .scalar _ _ text => (0, text)
  | .sequence _ _ => (1, "")
  | .mapping _ _ => (2, "")
  | .alias name _ => (3, name)

def hasDuplicates : List (Node × Node) → Bool
  | [] => false
  | (key, _) :: r => r.any (fun e => e.1.identity == key.identity) || hasDuplicates r

mutual

def depth : Node → Nat
  | .scalar _ _ _ => 1
  | .sequence _ items => itemsDepth items + 1
  | .mapping _ entries => entriesDepth entries + 1
  | .alias _ none => 1
  | .alias _ (some target) => target.depth + 1

def itemsDepth : List Node → Nat
  | [] => 0
  | n :: r => max n.depth (itemsDepth r)

def entriesDepth : List (Node × Node) → Nat
  | [] => 0
  | (k, v) :: r => max (max k.depth v.depth) (entriesDepth r)

end

end Node

end DocSite.Yaml
