import DocSite.Json.Basic
import DocSite.Link.Reference

/-!
Reading JSON one character at a time. The reader is a machine: its state holds the containers that
are still open and what may come next, and a character takes it to the next state. A whole text is a
document when the run over it ends in a finished document; a stream is one as soon as a prefix is.
-/

namespace DocSite.Json

inductive Frame
  | array (before : List Json)
  | object (before : List (String × Json)) (key : String)
deriving Repr

inductive TextRole
  | value
  | key (before : List (String × Json))
deriving Repr

inductive TextPlace
  | plain
  | escape
  | code (left value : Nat)
deriving Repr

inductive NumberPlace
  | sign
  | zero
  | whole
  | point
  | fraction
  | exponent
  | exponentSign
  | exponentDigits
deriving Repr, DecidableEq

/-- What may come next. Characters of texts and numbers are held in reverse, and texts in units of
code, since an escape may give half a character. -/
inductive Place
  | value
  | firstItem
  | item (before : List Json)
  | firstKey
  | key (before : List (String × Json))
  | colon (before : List (String × Json)) (key : String)
  | field (before : List (String × Json))
  | text (role : TextRole) (place : TextPlace) (units : List Nat)
  | word (rest : List Char) (result : Json)
  | number (place : NumberPlace) (chars : List Char)
  | done (result : Json)
  | failed
deriving Repr

structure State where
  stack : List Frame
  place : Place
deriving Repr

def State.start : State := ⟨[], .value⟩

def State.failed : State := ⟨[], .failed⟩

def isSpace (c : Char) : Bool := c == ' ' || c == '\t' || c == '\n' || c == '\r'

def depthLimit : Nat := 10000

/-- The characters that units of code stand for. Two halves of a character that follow each other
make it up; a half on its own is replaced. -/
def joinUnits : List Nat → List Char
  | [] => []
  | [u] => [if 0xd800 ≤ u ∧ u < 0xe000 then '\uFFFD' else Char.ofNat u]
  | u :: v :: r =>
    if 0xd800 ≤ u ∧ u < 0xdc00 ∧ 0xdc00 ≤ v ∧ v < 0xe000 then
      Char.ofNat (0x10000 + (u - 0xd800) * 0x400 + (v - 0xdc00)) :: joinUnits r
    else if 0xd800 ≤ u ∧ u < 0xe000 then '\uFFFD' :: joinUnits (v :: r)
    else Char.ofNat u :: joinUnits (v :: r)

def deliver (stack : List Frame) (result : Json) : State :=
  match stack with
  | [] => ⟨[], .done result⟩
  | .array before :: r => ⟨r, .item (result :: before)⟩
  | .object before key :: r => ⟨r, .field ((key, result) :: before)⟩

def deliverText (stack : List Frame) (role : TextRole) (units : List Nat) : State :=
  let s := String.ofList (joinUnits units.reverse)
  match role with
  | .value => deliver stack (.text s)
  | .key before => ⟨stack, .colon before s⟩

def openWith (stack : List Frame) (place : Place) : State :=
  if stack.length < depthLimit then ⟨stack, place⟩ else .failed

def startValue (stack : List Frame) (c : Char) : State :=
  match c with
  | '[' => openWith stack .firstItem
  | '{' => openWith stack .firstKey
  | '"' => ⟨stack, .text .value .plain []⟩
  | 't' => ⟨stack, .word ['r', 'u', 'e'] (.bool true)⟩
  | 'f' => ⟨stack, .word ['a', 'l', 's', 'e'] (.bool false)⟩
  | 'n' => ⟨stack, .word ['u', 'l', 'l'] .null⟩
  | '-' => ⟨stack, .number .sign [c]⟩
  | '0' => ⟨stack, .number .zero [c]⟩
  | _ => if c.isDigit then ⟨stack, .number .whole [c]⟩ else .failed

def stepAfter (s : State) (c : Char) : State :=
  if isSpace c then s
  else match s.place, c with
    | .item before, ',' => ⟨.array before :: s.stack, .value⟩
    | .item before, ']' => deliver s.stack (.array before.reverse)
    | .field before, ',' => ⟨s.stack, .key before⟩
    | .field before, '}' => deliver s.stack (.object before.reverse)
    | _, _ => .failed

def escapedUnit? (c : Char) : Option Nat :=
  match c with
  | '"' => some 0x22
  | '\\' => some 0x5c
  | '/' => some 0x2f
  | 'b' => some 0x08
  | 'f' => some 0x0c
  | 'n' => some 0x0a
  | 'r' => some 0x0d
  | 't' => some 0x09
  | _ => none

def stepText (stack : List Frame) (role : TextRole) (place : TextPlace) (units : List Nat)
    (c : Char) : State :=
  match place with
  | .plain =>
    if c = '"' then deliverText stack role units
    else if c = '\\' then ⟨stack, .text role .escape units⟩
    else if c.toNat < 0x20 then .failed
    else ⟨stack, .text role .plain (c.toNat :: units)⟩
  | .escape =>
    if c = 'u' then ⟨stack, .text role (.code 3 0) units⟩
    else match escapedUnit? c with
      | some u => ⟨stack, .text role .plain (u :: units)⟩
      | none => .failed
  | .code left value =>
    match Link.hexValue? c with
    | none => .failed
    | some d =>
      let value := 16 * value + d
      match left with
      | 0 => ⟨stack, .text role .plain (value :: units)⟩
      | left + 1 => ⟨stack, .text role (.code left value) units⟩

def stepNumber? (place : NumberPlace) (c : Char) : Option NumberPlace :=
  match place with
  | .sign => if c = '0' then some .zero else if c.isDigit then some .whole else none
  | .zero => afterWhole
  | .whole => if c.isDigit then some .whole else afterWhole
  | .point => if c.isDigit then some .fraction else none
  | .fraction => if c.isDigit then some .fraction else afterFraction
  | .exponent =>
    if c = '+' ∨ c = '-' then some .exponentSign
    else if c.isDigit then some .exponentDigits else none
  | .exponentSign => if c.isDigit then some .exponentDigits else none
  | .exponentDigits => if c.isDigit then some .exponentDigits else none
where
  afterFraction : Option NumberPlace := if c = 'e' ∨ c = 'E' then some .exponent else none
  afterWhole : Option NumberPlace := if c = '.' then some .point else afterFraction

def NumberPlace.final : NumberPlace → Bool
  | .zero | .whole | .fraction | .exponentDigits => true
  | _ => false

def numberOf (chars : List Char) : Json := .number (String.ofList chars.reverse)

def step (s : State) (c : Char) : State :=
  match s.place with
  | .value => if isSpace c then s else startValue s.stack c
  | .firstItem =>
    if isSpace c then s
    else if c = ']' then deliver s.stack (.array [])
    else startValue (.array [] :: s.stack) c
  | .firstKey =>
    if isSpace c then s
    else if c = '}' then deliver s.stack (.object [])
    else if c = '"' then ⟨s.stack, .text (.key []) .plain []⟩
    else .failed
  | .key before =>
    if isSpace c then s
    else if c = '"' then ⟨s.stack, .text (.key before) .plain []⟩
    else .failed
  | .colon before key =>
    if isSpace c then s
    else if c = ':' then ⟨.object before key :: s.stack, .value⟩
    else .failed
  | .text role place units => stepText s.stack role place units c
  | .word rest result =>
    match rest with
    | [] => .failed
    | [d] => if c = d then deliver s.stack result else .failed
    | d :: rest => if c = d then ⟨s.stack, .word rest result⟩ else .failed
  | .number place chars =>
    match stepNumber? place c with
    | some place => ⟨s.stack, .number place (c :: chars)⟩
    | none => if place.final then stepAfter (deliver s.stack (numberOf chars)) c else .failed
  | .item _ => stepAfter s c
  | .field _ => stepAfter s c
  | .done _ => stepAfter s c
  | .failed => s

def State.finish? (s : State) : Option Json :=
  match s.stack, s.place with
  | [], .done result => some result
  | [], .number place chars => if place.final then some (numberOf chars) else none
  | _, _ => none

def parse? (source : List Char) : Option Json :=
  (source.foldl step .start).finish?

inductive Progress
  | complete (document : Json)
  | broken
  | unfinished (s : State)
deriving Repr

/-- Whether a state holds a container that was just closed, so that nothing need follow it. -/
def State.closed? (s : State) : Option Json :=
  match s.place with
  | .done (.array items) => some (.array items)
  | .done (.object fields) => some (.object fields)
  | _ => none

/-- Follows a stream to the end of its first document. A container is complete with its last
character, and every other document only when something follows it. -/
def follow : State → List Char → Progress
  | s, [] => .unfinished s
  | s, c :: r =>
    match s.finish? with
    | some document =>
      -- only a number can go on at this point
      match (step s c).place with
      | .number _ _ => follow (step s c) r
      | _ => .complete document
    | none =>
      let next := step s c
      match next.closed?, next.place with
      | some document, _ => .complete document
      | none, .failed => .broken
      | none, _ => follow next r

end DocSite.Json
