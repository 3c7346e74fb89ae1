import DocSite.Number.Reader

namespace DocSite

structure Duration where
  nanoseconds : Int
deriving Repr, DecidableEq

namespace Duration

def zero : Duration := ⟨0⟩

def seconds (n : Int) : Duration := ⟨n * 1000000000⟩

def milliseconds (n : Int) : Duration := ⟨n * 1000000⟩

/-- A duration that is not negative, in seconds: the whole seconds and the rest are rounded each on
its own. -/
def inSeconds (d : Duration) : Binary64 :=
  (Binary64.ofInt (d.nanoseconds / 1000000000)).add
    ((Binary64.ofInt (d.nanoseconds % 1000000000)).div (.ofInt 1000000000))

def units : List (String × Nat) :=
  [("ns", 1), ("us", 1000), ("µs", 1000), ("μs", 1000), ("ms", 1000000), ("s", 1000000000),
   ("m", 60000000000), ("h", 3600000000000)]

inductive Fault
  | invalid
  | missingUnit
  | unknownUnit (unit : String)
deriving Repr, DecidableEq

def byteEscapes (c : Char) : List Char :=
  (String.utf8EncodeChar c).flatMap fun b =>
    ['\\', 'x', Nat.digitChar (b.toNat / 16), Nat.digitChar (b.toNat % 16)]

def quoted (s : String) : String :=
  String.ofList ('"' :: s.toList.flatMap (fun c =>
    if c.toNat < 0x20 ∨ 0x80 ≤ c.toNat then byteEscapes c
    else if c = '"' ∨ c = '\\' then ['\\', c]
    else [c]) ++ ['"'])

def Fault.message (text : String) : Fault → String
  | .invalid => "time: invalid duration " ++ quoted text
  | .missingUnit => "time: missing unit in duration " ++ quoted text
  | .unknownUnit unit =>
    "time: unknown unit " ++ quoted unit ++ " in duration " ++ quoted text

def limit : Nat := Nat.pow 2 63

def leadingNumber? : Nat → List Char → Option (Nat × List Char)
  | n, [] => some (n, [])
  | n, c :: r =>
    if c.isDigit then
      if limit / 10 < n then none
      else
        let next := n * 10 + (c.toNat - '0'.toNat)
        if limit < next then none else leadingNumber? next r
    else some (n, c :: r)

/-- Leading digits of a fraction with their power of ten; digits beyond the limit are passed over.
-/
def leadingFraction : Bool → Nat → Nat → List Char → Nat × Nat × List Char
  | _, n, scale, [] => (n, scale, [])
  | full, n, scale, c :: r =>
    if c.isDigit then
      let next := n * 10 + (c.toNat - '0'.toNat)
      if full || (limit - 1) / 10 < n || limit < next then leadingFraction true n scale r
      else leadingFraction false next (scale * 10) r
    else (n, scale, c :: r)

def fractionOf (unit fraction scale : Nat) : Nat :=
  let share := (Binary64.ofRatio false unit 1).div (.ofRatio false scale 1)
  (((Binary64.ofRatio false fraction 1).mul share).truncate?.getD 0).toNat

def isUnitChar (c : Char) : Bool := c != '.' && !c.isDigit

def readTerm (s : List Char) : Except Fault (Nat × List Char) :=
  match s with
  | [] => .error .invalid
  | c :: _ =>
    if !(c == '.' || c.isDigit) then .error .invalid
    else match leadingNumber? 0 s with
      | none => .error .invalid
      | some (whole, afterWhole) =>
        let (fraction, scale, hasFraction, rest) := match afterWhole with
          | '.' :: d =>
            let (f, scale, r) := leadingFraction false 0 1 d
            (f, scale, d.length != r.length, r)
          | r => (0, 1, false, r)
        if afterWhole.length == s.length && !hasFraction then .error .invalid
        else
          let unit := rest.takeWhile isUnitChar
          let rest := rest.dropWhile isUnitChar
          if unit.isEmpty then .error .missingUnit
          else match units.lookup (String.ofList unit) with
            | none => .error (.unknownUnit (String.ofList unit))
            | some length =>
              if limit / length < whole then .error .invalid
              else
                let total := whole * length +
                  (if fraction = 0 then 0 else fractionOf length fraction scale)
                if limit < total then .error .invalid else .ok (total, rest)

/-- Reads terms until the text ends. Each term takes at least one character, so the length of the
text is fuel enough. -/
def readTerms : Nat → Nat → List Char → Except Fault Nat
  | _, total, [] => .ok total
  | 0, _, _ => .error .invalid
  | fuel + 1, total, s =>
    match readTerm s with
    | .error fault => .error fault
    | .ok (term, rest) =>
      if limit < total + term then .error .invalid else readTerms fuel (total + term) rest

def read (text : String) : Except Fault Duration :=
  let (negative, body) := match text.toList with
    | '-' :: r => (true, r)
    | '+' :: r => (false, r)
    | s => (false, s)
  if body = ['0'] then .ok zero
  else if body.isEmpty then .error .invalid
  else match readTerms body.length 0 body with
    | .error fault => .error fault
    | .ok total =>
      if negative then .ok ⟨-(total : Int)⟩
      else if limit ≤ total then .error .invalid
      else .ok ⟨total⟩

def fractionText (places n : Nat) : String :=
  let digits := (Nat.toDigits 10 n)
  let padded := List.replicate (places - digits.length) '0' ++ digits
  let kept := (padded.reverse.dropWhile (· = '0')).reverse
  if n = 0 || kept.isEmpty then "" else "." ++ String.ofList kept

def countText (n places : Nat) : String :=
  toString (n / Nat.pow 10 places) ++ fractionText places (n % Nat.pow 10 places)

def magnitudeText (n : Nat) : String :=
  if n = 0 then "0s"
  else if n < 1000 then countText n 0 ++ "ns"
  else if n < 1000000 then countText n 3 ++ "µs"
  else if n < 1000000000 then countText n 6 ++ "ms"
  else
    let whole := n / 1000000000
    let seconds := toString (whole % 60) ++ fractionText 9 (n % 1000000000) ++ "s"
    let minutes := whole / 60
    if minutes = 0 then seconds
    else if minutes / 60 = 0 then toString (minutes % 60) ++ "m" ++ seconds
    else toString (minutes / 60) ++ "h" ++ toString (minutes % 60) ++ "m" ++ seconds

def text (d : Duration) : String :=
  if d.nanoseconds < 0 then "-" ++ magnitudeText d.nanoseconds.natAbs
  else magnitudeText d.nanoseconds.natAbs

end Duration

end DocSite
