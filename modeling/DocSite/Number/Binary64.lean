/-!
Binary floating-point numbers of 64 bits, as exact data: a sign, a mantissa below 2^53 and a power
of two. Every operation computes the exact rational result first and then takes the nearest number,
a tie going to the even mantissa, so that nothing here depends on a machine.
-/

namespace DocSite

/-- The number `(-1)^negative · mantissa · 2^exponent`, an infinity, or no number at all. Finite
numbers made by `ofRatio` have `exponent ≥ -1074`, and a mantissa of at least 2^52 unless the
exponent is that least one. -/
inductive Binary64
  | nan
  | infinite (negative : Bool)
  | finite (negative : Bool) (mantissa : Nat) (exponent : Int)
deriving Repr, DecidableEq

namespace Binary64

def leastExponent : Int := -1074

def greatestExponent : Int := 971

def zero (negative : Bool) : Binary64 := .finite negative 0 leastExponent

def ratio (mantissa : Nat) (exponent : Int) : Nat × Nat :=
  if 0 ≤ exponent then (mantissa * Nat.pow 2 exponent.toNat, 1)
  else (mantissa, Nat.pow 2 (-exponent).toNat)

def divNearest (num den : Nat) : Nat :=
  let quotient := num / den
  let twice := 2 * (num % den)
  if twice < den then quotient
  else if den < twice then quotient + 1
  else quotient + quotient % 2

def scaledFloor (num den : Nat) (exponent : Int) : Nat :=
  if 0 ≤ exponent then num / (den * Nat.pow 2 exponent.toNat)
  else num * Nat.pow 2 (-exponent).toNat / den

def scaledNearest (num den : Nat) (exponent : Int) : Nat :=
  if 0 ≤ exponent then divNearest num (den * Nat.pow 2 exponent.toNat)
  else divNearest (num * Nat.pow 2 (-exponent).toNat) den

/-- The power of two by which `num / den` is divided before its mantissa is rounded: the one that
leaves 53 binary digits, or the least one. -/
def exponentOf (num den : Nat) : Int :=
  let guess : Int := (Nat.log2 num : Int) - Nat.log2 den - 53
  let exact := if scaledFloor num den guess < Nat.pow 2 53 then guess else guess + 1
  max exact leastExponent

def ofRatio (negative : Bool) (num den : Nat) : Binary64 :=
  if num = 0 then zero negative
  else
    let exponent := exponentOf num den
    let mantissa := scaledNearest num den exponent
    let (m, e) :=
      if mantissa = Nat.pow 2 53 then (Nat.pow 2 52, exponent + 1) else (mantissa, exponent)
    if greatestExponent < e then .infinite negative else .finite negative m e

def ofInt (i : Int) : Binary64 :=
  ofRatio (i < 0) i.natAbs 1

def decimalLength (n : Nat) : Nat :=
  if n = 0 then 0 else (Nat.toDigits 10 n).length

def ofDecimal (negative : Bool) (significand : Nat) (power : Int) : Binary64 :=
  let size : Int := decimalLength significand + power
  if significand = 0 ∨ size < -400 then zero negative
  else if 400 < size then .infinite negative
  else if 0 ≤ power then ofRatio negative (significand * Nat.pow 10 power.toNat) 1
  else ofRatio negative significand (Nat.pow 10 (-power).toNat)

def isNegative : Binary64 → Bool
  | .nan => false
  | .infinite negative => negative
  | .finite negative mantissa _ => negative && mantissa != 0

def isNonNegative : Binary64 → Bool
  | .nan => false
  | x => !x.isNegative

def isNonPositive : Binary64 → Bool
  | .nan => false
  | .infinite negative => negative
  | .finite negative mantissa _ => negative || mantissa == 0

def mul : Binary64 → Binary64 → Binary64
  | .finite n₁ m₁ e₁, .finite n₂ m₂ e₂ =>
    let (p, q) := ratio (m₁ * m₂) (e₁ + e₂)
    ofRatio (n₁ != n₂) p q
  | _, _ => .nan

def div : Binary64 → Binary64 → Binary64
  | .finite n₁ m₁ e₁, .finite n₂ m₂ e₂ =>
    if m₂ = 0 then .nan
    else
      let (p, q) := ratio m₁ (e₁ - e₂)
      ofRatio (n₁ != n₂) p (q * m₂)
  | _, _ => .nan

def add : Binary64 → Binary64 → Binary64
  | .finite _ m₁ e₁, .finite _ m₂ e₂ =>
    let least := min e₁ e₂
    let (p, q) :=
      ratio (m₁ * Nat.pow 2 (e₁ - least).toNat + m₂ * Nat.pow 2 (e₂ - least).toNat) least
    ofRatio false p q
  | _, _ => .nan

def sub : Binary64 → Binary64 → Binary64
  | .finite _ m₁ e₁, .finite _ m₂ e₂ =>
    let least := min e₁ e₂
    let (p, q) :=
      ratio (m₁ * Nat.pow 2 (e₁ - least).toNat - m₂ * Nat.pow 2 (e₂ - least).toNat) least
    ofRatio false p q
  | _, _ => .nan

def isBelow : Binary64 → Binary64 → Bool
  | .finite _ m₁ e₁, .finite _ m₂ e₂ =>
    let least := min e₁ e₂
    m₁ * Nat.pow 2 (e₁ - least).toNat < m₂ * Nat.pow 2 (e₂ - least).toNat
  | _, _ => false

def truncate? : Binary64 → Option Int
  | .finite negative m e =>
    let whole := scaledFloor m 1 (-e)
    some (if negative then -(whole : Int) else whole)
  | _ => none

def leastInt64 : Int := -Int.pow 2 63

def toInt64 (x : Binary64) : Int :=
  match x.truncate? with
  | some i => if leastInt64 ≤ i ∧ i < Int.pow 2 63 then i else leastInt64
  | none => leastInt64

/-- Whether the value is not above the greatest signed integer of 64 bits, as far as floating-point
numbers tell it from the next one. -/
def withinInt64 : Binary64 → Bool
  | .nan => false
  | .infinite negative => negative
  | .finite negative m e =>
    let (p, q) := ratio m e
    negative || p ≤ Nat.pow 2 63 * q

def ceil : Binary64 → Int
  | .finite _ m e =>
    let (p, q) := ratio m e
    (p + q - 1) / q
  | _ => 0

end Binary64

end DocSite
