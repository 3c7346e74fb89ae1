namespace DocSite

def isLeapYear (year : Nat) : Bool :=
  year % 4 == 0 && (year % 100 != 0 || year % 400 == 0)

def daysInMonth (year month : Nat) : Nat :=
  match month with
  | 2 => if isLeapYear year then 29 else 28
  | 4 => 30
  | 6 => 30
  | 9 => 30
  | 11 => 30
  | _ => 31

structure Date where
  year : Nat
  month : Nat
  day : Nat
deriving Repr, DecidableEq

def Date.valid (d : Date) : Bool :=
  1 ≤ d.month && d.month ≤ 12 && 1 ≤ d.day && d.day ≤ daysInMonth d.year d.month

structure TimeOfDay where
  hour : Nat
  minute : Nat
  second : Nat
  nanosecond : Nat := 0
deriving Repr, DecidableEq

def TimeOfDay.valid (t : TimeOfDay) : Bool :=
  t.hour < 24 && t.minute < 60 && t.second < 60

def padded (width n : Nat) : String :=
  let digits := Nat.toDigits 10 n
  String.ofList (List.replicate (width - digits.length) '0' ++ digits)

def fractionOfSecond (nanosecond : Nat) : String :=
  if nanosecond = 0 then ""
  else "." ++ String.ofList (((padded 9 nanosecond).toList.reverse.dropWhile (· = '0')).reverse)

def Date.text (d : Date) : String :=
  padded 4 d.year ++ "-" ++ padded 2 d.month ++ "-" ++ padded 2 d.day

def TimeOfDay.clockText (t : TimeOfDay) : String :=
  padded 2 t.hour ++ ":" ++ padded 2 t.minute ++ ":" ++ padded 2 t.second

def offsetText (seconds : Int) : String :=
  if seconds = 0 then "Z"
  else
    let minutes := seconds.natAbs / 60
    (if seconds < 0 then "-" else "+") ++ padded 2 (minutes / 60) ++ ":" ++ padded 2 (minutes % 60)

/-- A point of time as a document writes it: a date and a time, or one of them alone, with or
without an offset. A local time keeps how many decimal places it was written with. -/
inductive Moment
  | zoned (date : Date) (time : TimeOfDay) (offset : Int)
  | dateTime (date : Date) (time : TimeOfDay) (places : Nat)
  | date (date : Date)
  | time (time : TimeOfDay) (places : Nat)
deriving Repr, DecidableEq

def TimeOfDay.textWith (t : TimeOfDay) (places : Nat) : String :=
  if places = 0 then t.clockText
  else t.clockText ++ "." ++ String.ofList ((padded 9 t.nanosecond).toList.take places)

def Moment.text : Moment → String
  | .zoned d t offset =>
    d.text ++ "T" ++ t.clockText ++ fractionOfSecond t.nanosecond ++ offsetText offset
  | .dateTime d t places => d.text ++ "T" ++ t.textWith places
  | .date d => d.text
  | .time t places => t.textWith places

structure Instant where
  nanoseconds : Nat
deriving Repr, DecidableEq

namespace Instant

/-- The date that lies a number of days after the first of January 1970. Years are counted from the
first of March, so that the day that leap years add comes last. -/
def dateOfDays (days : Nat) : Date :=
  let z := days + 719468
  let era := z / 146097
  let dayOfEra := z % 146097
  let yearOfEra := (dayOfEra - dayOfEra / 1460 + dayOfEra / 36524 - dayOfEra / 146096) / 365
  let dayOfYear := dayOfEra - (365 * yearOfEra + yearOfEra / 4 - yearOfEra / 100)
  let shifted := (5 * dayOfYear + 2) / 153
  let day := dayOfYear - (153 * shifted + 2) / 5 + 1
  let month := if shifted < 10 then shifted + 3 else shifted - 9
  let year := yearOfEra + era * 400 + (if month ≤ 2 then 1 else 0)
  ⟨year, month, day⟩

def toMoment (i : Instant) : Moment :=
  let seconds := i.nanoseconds / 1000000000
  let ofDay := seconds % 86400
  .zoned (dateOfDays (seconds / 86400))
    ⟨ofDay / 3600, ofDay / 60 % 60, ofDay % 60, i.nanoseconds % 1000000000⟩ 0

def text (i : Instant) : String := i.toMoment.text

def later (i : Instant) (nanoseconds : Nat) : Instant := ⟨i.nanoseconds + nanoseconds⟩

end Instant

end DocSite
