import DocSite.Number.Binary64

namespace DocSite.Binary64

def compareDecimal (digits : Nat) (power : Int) (num den : Nat) : Ordering :=
  if 0 ≤ power then compare (digits * Nat.pow 10 power.toNat * den) num
  else compare (digits * den) (num * Nat.pow 10 (-power).toNat)

def decimalFloor (num den : Nat) (power : Int) : Nat :=
  if 0 ≤ power then num / (den * Nat.pow 10 power.toNat)
  else num * Nat.pow 10 (-power).toNat / den

def raisePlace (num den : Nat) : Nat → Int → Int
  | 0, place => place
  | fuel + 1, place =>
    if compareDecimal 1 place num den != .gt then raisePlace num den fuel (place + 1) else place

def decimalPlace (num den : Nat) : Int :=
  let bits : Int := (Nat.log2 num : Int) - Nat.log2 den - 1
  raisePlace num den 4 (bits * 30103 / 100000)

/-- The decimals that round to `mantissa · 2^exponent` lie between its midpoints with its two
neighbours; the ends count exactly when the mantissa is even. -/
def readsBack (mantissa : Nat) (exponent : Int) (digits : Nat) (power : Int) : Bool :=
  let below := if mantissa = Nat.pow 2 52 ∧ leastExponent < exponent then 1 else 2
  let (low, den) := ratio (4 * mantissa - below) (exponent - 2)
  let (high, _) := ratio (4 * mantissa + 2) (exponent - 2)
  let atLow := compareDecimal digits power low den
  let atHigh := compareDecimal digits power high den
  let inside := mantissa % 2 == 0
  (atLow == .gt || (inside && atLow == .eq)) && (atHigh == .lt || (inside && atHigh == .eq))

def candidate? (mantissa : Nat) (exponent : Int) (place : Int) (count : Nat) :
    Option (Nat × Int) :=
  let power := place - count
  let (num, den) := ratio mantissa exponent
  let floor := decimalFloor num den power
  let low := readsBack mantissa exponent floor power
  let high := readsBack mantissa exponent (floor + 1) power
  let upper := compareDecimal (2 * floor + 1) power (2 * num) den == .lt
  if low && high then some (if upper then floor + 1 else floor, power)
  else if low then some (floor, power)
  else if high then some (floor + 1, power)
  else none

def searchDigits (mantissa : Nat) (exponent : Int) (place : Int) : Nat → Nat → Nat × Int
  | 0, _ => (mantissa, exponent)
  | fuel + 1, count =>
    match candidate? mantissa exponent place count with
    | some found => found
    | none => searchDigits mantissa exponent place fuel (count + 1)

def trimZeros : Nat → Nat × Int → Nat × Int
  | 0, d => d
  | fuel + 1, (digits, power) =>
    if digits ≠ 0 ∧ digits % 10 = 0 then trimZeros fuel (digits / 10, power + 1)
    else (digits, power)

/-- The shortest digits of `mantissa · 2^exponent` and their power of ten, for a mantissa other
than zero. Seventeen digits always suffice. -/
def shortestDigits (mantissa : Nat) (exponent : Int) : Nat × Int :=
  let (num, den) := ratio mantissa exponent
  trimZeros 20 (searchDigits mantissa exponent (decimalPlace num den) 17 1)

def exponentText (exponent : Int) : String :=
  let digits := toString exponent.natAbs
  (if exponent < 0 then "-" else "+") ++ (if digits.length < 2 then "0" ++ digits else digits)

def scientific (digits : List Char) (exponent : Int) : String :=
  let mantissa := match digits with
    | [] => []
    | [d] => [d]
    | d :: rest => d :: '.' :: rest
  String.ofList mantissa ++ "e" ++ exponentText exponent

def positional (digits : List Char) (point : Int) : String :=
  if point ≤ 0 then
    "0." ++ String.ofList (List.replicate (-point).toNat '0' ++ digits)
  else
    let whole := digits.take point.toNat
    let fraction := digits.drop point.toNat
    let whole := whole ++ List.replicate (point.toNat - whole.length) '0'
    if fraction.isEmpty then String.ofList whole
    else String.ofList (whole ++ '.' :: fraction)

def text : Binary64 → String
  | .nan => "NaN"
  | .infinite negative => if negative then "-Inf" else "+Inf"
  | .finite negative mantissa exponent =>
    let sign := if negative then "-" else ""
    if mantissa = 0 then sign ++ "0"
    else
      let (digits, power) := shortestDigits mantissa exponent
      let digits := Nat.toDigits 10 digits
      let point : Int := digits.length + power
      if point - 1 < -4 ∨ 6 ≤ point - 1 then sign ++ scientific digits (point - 1)
      else sign ++ positional digits point

end DocSite.Binary64
