import DocSite.Time.Calendar

namespace DocSite.Yaml

def shortNumber? : List Char → Option (Nat × List Char)
  | a :: b :: r =>
    if a.isDigit then
      if b.isDigit then some (10 * (a.toNat - 48) + (b.toNat - 48), r)
      else some (a.toNat - 48, b :: r)
    else none
  | [a] => if a.isDigit then some (a.toNat - 48, []) else none
  | [] => none

def twoDigits? : List Char → Option Nat
  | [a, b] => if a.isDigit && b.isDigit then some (10 * (a.toNat - 48) + (b.toNat - 48)) else none
  | _ => none

def expect? (c : Char) : List Char → Option (List Char)
  | d :: r => if c = d then some r else none
  | [] => none

def digitsValue (digits : List Char) : Nat :=
  digits.foldl (fun n c => 10 * n + (c.toNat - 48)) 0

def fraction : List Char → Nat × List Char
  | mark :: d :: r =>
    if (mark = '.' ∨ mark = ',') ∧ d.isDigit then
      let digits := (d :: r).takeWhile Char.isDigit
      let kept := digits.take 9
      (digitsValue kept * Nat.pow 10 (9 - kept.length), (d :: r).dropWhile Char.isDigit)
    else (0, mark :: d :: r)
  | s => (0, s)

def date? (s : List Char) : Option (Date × List Char) := do
  let year := s.takeWhile Char.isDigit
  if year.length ≠ 4 then none
  let r ← expect? '-' (s.dropWhile Char.isDigit)
  let (month, r) ← shortNumber? r
  let r ← expect? '-' r
  let (day, r) ← shortNumber? r
  let date : Date := ⟨digitsValue year, month, day⟩
  if date.valid then some (date, r) else none

def time? (s : List Char) : Option (TimeOfDay × List Char) := do
  let (hour, r) ← shortNumber? s
  let r ← expect? ':' r
  let (minute, r) ← shortNumber? r
  let r ← expect? ':' r
  let (second, r) ← shortNumber? r
  let (nanosecond, r) := fraction r
  let time : TimeOfDay := ⟨hour, minute, second, nanosecond⟩
  if time.valid then some (time, r) else none

def offset? : List Char → Option Int
  | ['Z'] => some 0
  | [sign, a, b, ':', c, d] => do
    let hours ← twoDigits? [a, b]
    let minutes ← twoDigits? [c, d]
    if 24 < hours ∨ 60 < minutes then none
    let seconds : Int := 3600 * hours + 60 * minutes
    if sign = '+' then some seconds else if sign = '-' then some (-seconds) else none
  | _ => none

def timestamp? (s : List Char) : Option Moment := do
  let (date, r) ← date? s
  match r with
  | [] => some (.zoned date ⟨0, 0, 0, 0⟩ 0)
  | c :: r =>
    if c = 'T' ∨ c = 't' then
      let (time, r) ← time? r
      let offset ← offset? r
      some (.zoned date time offset)
    else if c = ' ' then
      let (time, r) ← time? r
      if r.isEmpty then some (.zoned date time 0) else none
    else none

end DocSite.Yaml
