import DocSite.Number.Binary64

namespace DocSite.Number

inductive Fault
  | form
  | range
deriving Repr, DecidableEq

def Fault.message : Fault → String
  | .form => "invalid syntax"
  | .range => "value out of range"

def lower (c : Char) : Char := c.toLower

def digitValue? (c : Char) : Option Nat :=
  if '0' ≤ c ∧ c ≤ '9' then some (c.toNat - '0'.toNat)
  else
    let l := lower c
    if 'a' ≤ l ∧ l ≤ 'z' then some (l.toNat - 'a'.toNat + 10) else none

def readDigits? (base : Nat) : Nat → List Char → Option Nat
  | n, [] => some n
  | n, c :: r =>
    match digitValue? c with
    | some d => if d < base then readDigits? base (base * n + d) r else none
    | none => none

def readNat? (base : Nat) (s : List Char) : Option Nat :=
  if s.isEmpty then none else readDigits? base 0 s

def readPrefixed? : List Char → Option Nat
  | [] => none
  | '0' :: rest =>
    match rest with
    | b :: d :: r =>
      match lower b with
      | 'b' => readNat? 2 (d :: r)
      | 'o' => readNat? 8 (d :: r)
      | 'x' => readNat? 16 (d :: r)
      | _ => readNat? 8 rest
    | _ => readDigits? 8 0 rest
  | s => readNat? 10 s

def readSigned? (read : List Char → Option Nat) : List Char → Option Int
  | '-' :: r => (read r).map fun n => -(n : Int)
  | '+' :: r => (read r).map fun n => (n : Int)
  | s => (read s).map fun n => (n : Int)

def fitsSigned (bits : Nat) (i : Int) : Bool :=
  -Int.pow 2 (bits - 1) ≤ i && i < Int.pow 2 (bits - 1)

inductive Before
  | start
  | digit
  | underscore
  | other
deriving DecidableEq

def underscoresBetween (hex : Bool) : Before → List Char → Bool
  | seen, [] => seen != .underscore
  | seen, c :: r =>
    if c.isDigit || (hex && (digitValue? c).any (· < 16)) then underscoresBetween hex .digit r
    else if c == '_' then seen == .digit && underscoresBetween hex .underscore r
    else seen != .underscore && underscoresBetween hex .other r

/-- The rule for underscores: between digits, or between a base mark and a digit. -/
def underscoresOk (s : List Char) : Bool :=
  let s := match s with
    | '-' :: r => r
    | '+' :: r => r
    | s => s
  match s with
  | '0' :: b :: r =>
    match lower b with
    | 'b' => underscoresBetween false .digit r
    | 'o' => underscoresBetween false .digit r
    | 'x' => underscoresBetween true .digit r
    | _ => underscoresBetween false .start s
  | s => underscoresBetween false .start s

structure Mantissa where
  value : Nat := 0
  fraction : Nat := 0
  point : Bool := false
  any : Bool := false

def readMantissa (base : Nat) : Mantissa → List Char → Mantissa × List Char
  | m, [] => (m, [])
  | m, c :: r =>
    if c = '_' then readMantissa base m r
    else if c = '.' then
      if m.point then (m, c :: r) else readMantissa base { m with point := true } r
    else
      match digitValue? c with
      | some d =>
        if d < base then
          readMantissa base
            { m with
              value := m.value * base + d
              fraction := if m.point then m.fraction + 1 else m.fraction
              any := true } r
        else (m, c :: r)
      | none => (m, c :: r)

def readExponentDigits : Nat → List Char → Nat × List Char
  | n, [] => (n, [])
  | n, c :: r =>
    if c = '_' then readExponentDigits n r
    else if c.isDigit then
      readExponentDigits (if n < 10000 then n * 10 + (c.toNat - '0'.toNat) else n) r
    else (n, c :: r)

def readExponent? (mark : Char) : List Char → Option (Option Int × List Char)
  | [] => some (none, [])
  | c :: r =>
    if lower c = mark then
      let (negative, digits) := match r with
        | '+' :: d => (false, d)
        | '-' :: d => (true, d)
        | d => (false, d)
      match digits with
      | d :: _ =>
        if d.isDigit then
          let (n, rest) := readExponentDigits 0 digits
          some (some (if negative then -(n : Int) else n), rest)
        else none
      | [] => none
    else some (none, c :: r)

def readWord? (s : List Char) : Option Binary64 :=
  let word (s : List Char) := String.ofList (s.map lower)
  let infinity (negative : Bool) (s : List Char) :=
    if word s = "inf" ∨ word s = "infinity" then some (.infinite negative) else none
  match s with
  | '+' :: r => infinity false r
  | '-' :: r => infinity true r
  | s => if word s = "nan" then some .nan else infinity false s

def readDecimal (negative : Bool) (s : List Char) : Except Fault Binary64 :=
  let (m, rest) := readMantissa 10 {} s
  if !m.any then .error .form
  else match readExponent? 'e' rest with
    | some (e, []) => .ok (.ofDecimal negative m.value (e.getD 0 - m.fraction))
    | _ => .error .form

def readHexadecimal (negative : Bool) (s : List Char) : Except Fault Binary64 :=
  let (m, rest) := readMantissa 16 {} s
  if !m.any then .error .form
  else match readExponent? 'p' rest with
    | some (some e, []) =>
      let power := e - 4 * m.fraction
      .ok (if 0 ≤ power then .ofRatio negative (m.value * Nat.pow 2 power.toNat) 1
        else .ofRatio negative m.value (Nat.pow 2 (-power).toNat))
    | _ => .error .form

/-- Reads a floating-point number. A number whose size has no finite neighbour is a fault of range;
one too small to tell from zero is zero. -/
def readFloat (s : List Char) : Except Fault Binary64 :=
  match readWord? s with
  | some x => .ok x
  | none =>
    let (negative, body) := match s with
      | '+' :: r => (false, r)
      | '-' :: r => (true, r)
      | s => (false, s)
    let number := match body with
      | '0' :: x :: d :: r =>
        if lower x = 'x' then readHexadecimal negative (d :: r) else readDecimal negative body
      | _ => readDecimal negative body
    match number with
    | .ok x =>
      if s.contains '_' && !underscoresOk s then .error .form
      else match x with
        | .infinite _ => .error .range
        | x => .ok x
    | .error fault => .error fault

end DocSite.Number
