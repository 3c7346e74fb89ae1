import DocSite.Number.Reader
import DocSite.Toml.Writer

namespace DocSite.Toml

abbrev Rest := List Char

def isBlank (c : Char) : Bool := c == ' ' || c == '\t'

def skipBlanks (s : Rest) : Rest := s.dropWhile isBlank

def expect? (c : Char) : Rest → Option Rest
  | d :: r => if c = d then some r else none
  | [] => none

def newline? : Rest → Option Rest
  | '\n' :: r => some r
  | '\r' :: '\n' :: r => some r
  | _ => none

def comment? : Rest → Option Rest
  | [] => some []
  | '\n' :: r => some ('\n' :: r)
  | '\r' :: '\n' :: r => some ('\n' :: r)
  | c :: r => if c = '\r' ∨ isForbidden c then none else comment? r

def hexNumber? (digits : List Char) : Option Nat :=
  if digits.all fun c => c.isDigit || ('a' ≤ c && c ≤ 'f') || ('A' ≤ c && c ≤ 'F') then
    Number.readNat? 16 digits
  else none

def codePoint? (width : Nat) (s : Rest) : Option Char := do
  if (s.take width).length < width then none
  let n ← hexNumber? (s.take width)
  if 0x10ffff < n ∨ (0xd800 ≤ n ∧ n < 0xe000) then none else some (Char.ofNat n)

def escaped? (c : Char) : Option Char :=
  match c with
  | '"' => some '"'
  | '\\' => some '\\'
  | 'b' => some '\x08'
  | 'f' => some '\x0c'
  | 'n' => some '\n'
  | 'r' => some '\r'
  | 't' => some '\t'
  | 'e' => some '\x1b'
  | _ => none

def escape? : Rest → Option (Char × Rest)
  | 'u' :: r => (codePoint? 4 r).map fun c => (c, r.drop 4)
  | 'U' :: r => (codePoint? 8 r).map fun c => (c, r.drop 8)
  | c :: r => (escaped? c).map fun e => (e, r)
  | [] => none

def basicText : Nat → List Char → Rest → Option (List Char × Rest)
  | 0, _, _ => none
  | _ + 1, _, [] => none
  | fuel + 1, text, c :: r =>
    if c = '"' then some (text.reverse, r)
    else if c = '\n' ∨ c = '\r' ∨ isForbidden c then none
    else if c = '\\' then
      match escape? r with
      | none => none
      | some (e, r) => basicText fuel (e :: text) r
    else basicText fuel (c :: text) r

def literalText : List Char → Rest → Option (List Char × Rest)
  | _, [] => none
  | text, c :: r =>
    if c = '\'' then some (text.reverse, r)
    else if c = '\n' ∨ c = '\r' ∨ isForbidden c then none
    else literalText (c :: text) r

def closingQuotes? (quote : Char) (s : Rest) : Option (List Char × Rest) :=
  let n := (s.takeWhile (· == quote)).length
  if n < 3 then none else if 5 < n then none else some (List.replicate (n - 3) quote, s.drop n)

def endsLine (s : Rest) : Bool :=
  let s := s.dropWhile isBlank
  s.head? == some '\n' || ['\r', '\n'].isPrefixOf s

def isSpace (c : Char) : Bool := isBlank c || c == '\n' || c == '\r'

def longBasicText : Nat → List Char → Rest → Option (List Char × Rest)
  | 0, _, _ => none
  | _ + 1, _, [] => none
  | fuel + 1, text, c :: r =>
    if c = '"' ∧ ['"', '"'].isPrefixOf r then
      (closingQuotes? '"' (c :: r)).map fun (more, r) => (text.reverse ++ more, r)
    else if c = '\\' then
      if endsLine r then longBasicText fuel text (r.dropWhile isSpace)
      else match escape? r with
        | none => none
        | some (e, r) => longBasicText fuel (e :: text) r
    else if isForbidden c ∨ (c = '\r' ∧ r.head? ≠ some '\n') then none
    else longBasicText fuel (c :: text) r

def longLiteralText : Nat → List Char → Rest → Option (List Char × Rest)
  | 0, _, _ => none
  | _ + 1, _, [] => none
  | fuel + 1, text, c :: r =>
    if c = '\'' ∧ ['\'', '\''].isPrefixOf r then
      (closingQuotes? '\'' (c :: r)).map fun (more, r) => (text.reverse ++ more, r)
    else if isForbidden c ∨ (c = '\r' ∧ r.head? ≠ some '\n') then none
    else longLiteralText fuel (c :: text) r

def skipFirstBreak (s : Rest) : Rest := (newline? s).getD s

def shortText? : Rest → Option (List Char × Rest)
  | '"' :: r => basicText (r.length + 1) [] r
  | '\'' :: r => literalText [] r
  | _ => none

def text? : Rest → Option (List Char × Rest)
  | '"' :: '"' :: '"' :: r => longBasicText (r.length + 1) [] (skipFirstBreak r)
  | '\'' :: '\'' :: '\'' :: r => longLiteralText (r.length + 1) [] (skipFirstBreak r)
  | s => shortText? s

def underscoresBetween (isDigit : Char → Bool) : Bool → List Char → Bool
  | _, [] => true
  | before, c :: r =>
    if c = '_' then before && (r.head?.map isDigit).getD false && underscoresBetween isDigit false r
    else underscoresBetween isDigit (isDigit c) r

def dropUnderscores (s : List Char) : List Char := s.filter (· != '_')

def integer? (i : Option Int) : Option Scalar :=
  (i.filter (Number.fitsSigned 64)).map (.integer .signed)

def decimalInteger? (s : List Char) : Option Scalar :=
  let digits := match s with
    | '+' :: r => r
    | '-' :: r => r
    | s => s
  let plain := dropUnderscores digits
  if !underscoresBetween Char.isDigit false digits || (1 < plain.length && plain.head? == some '0')
  then none
  else integer? (Number.readSigned? (Number.readNat? 10) (dropUnderscores s))

def basedInteger? (base : Nat) (digits : List Char) : Option Scalar :=
  if underscoresBetween (fun c => c != '_') false digits then
    integer? ((Number.readNat? base (dropUnderscores digits)).map Int.ofNat)
  else none

def pointsOk : Bool → List Char → Bool
  | _, [] => true
  | before, '.' :: r => before && (r.head?.map Char.isDigit).getD false && pointsOk false r
  | _, c :: r => pointsOk c.isDigit r

/-- A floating-point number. Its whole part has no zeros in front, and a point stands between
digits. -/
def float? (s : List Char) : Option Scalar :=
  let digits := match s with
    | '+' :: r => r
    | '-' :: r => r
    | s => s
  if digits = ['n', 'a', 'n'] then some (.float .nan)
  else
    let plain := dropUnderscores s
    let leading := match dropUnderscores digits with
      | '0' :: c :: _ => c.isDigit
      | _ => false
    if !underscoresBetween Char.isDigit false digits || !pointsOk false plain || leading ||
      1 < plain.count '.'
    then none
    else (Number.readFloat plain).toOption.map .float

def isNumberChar (c : Char) : Bool :=
  c.isDigit || c == '+' || c == '-' || c == '_' || c == '.' || c == 'e' || c == 'E'

def baseOf? (mark : Char) : Option (Nat × (Char → Bool)) :=
  match mark with
  | 'x' => some (16, fun c => c.isDigit || ('a' ≤ c && c ≤ 'f') || ('A' ≤ c && c ≤ 'F') || c == '_')
  | 'o' => some (8, fun c => ('0' ≤ c && c ≤ '7') || c == '_')
  | 'b' => some (2, fun c => c == '0' || c == '1' || c == '_')
  | _ => none

def decimal? (s : Rest) : Option (Scalar × Rest) :=
  let taken := s.takeWhile isNumberChar
  let rest := s.drop taken.length
  match rest with
  | 'i' :: 'n' :: 'f' :: r => (float? (taken ++ ['i', 'n', 'f'])).map fun x => (x, r)
  | 'n' :: 'a' :: 'n' :: r => (float? (taken ++ ['n', 'a', 'n'])).map fun x => (x, r)
  | 'i' :: _ => none
  | 'n' :: _ => none
  | _ =>
    if taken.isEmpty then none
    else if taken.any fun c => c == '.' || c == 'e' || c == 'E' then
      (float? taken).map fun x => (x, rest)
    else (decimalInteger? taken).map fun x => (x, rest)

def number? (s : Rest) : Option (Scalar × Rest) :=
  match s with
  | '0' :: mark :: c :: r =>
    if mark = '.' ∨ mark = 'e' ∨ mark = 'E' then decimal? s
    else match baseOf? mark with
      | some (base, isDigit) =>
        let digits := (c :: r).takeWhile isDigit
        (basedInteger? base digits).map fun x => (x, (c :: r).drop digits.length)
      | none => some (.integer .signed 0, mark :: c :: r)
  | _ => decimal? s

def digits? (s : List Char) : Option Nat :=
  if s.all Char.isDigit then Number.readNat? 10 s else none

def date? (s : List Char) : Option Date :=
  match s with
  | [a, b, c, d, '-', e, f, '-', g, h] => do
    let date : Date := ⟨← digits? [a, b, c, d], ← digits? [e, f], ← digits? [g, h]⟩
    if date.valid then some date else none
  | _ => none

def fractionPlaces : Nat := 9

def time? (s : List Char) : Option (TimeOfDay × Nat × Rest) :=
  match s with
  | a :: b :: ':' :: c :: d :: ':' :: e :: f :: r => do
    let hour ← digits? [a, b]
    let minute ← digits? [c, d]
    let second ← digits? [e, f]
    if 23 < hour ∨ 59 < minute ∨ 60 < second then none
    match r with
    | '.' :: r =>
      let digits := r.takeWhile Char.isDigit
      if digits.isEmpty then none
      let kept := digits.take fractionPlaces
      let fraction ← digits? kept
      some (⟨hour, minute, second, fraction * Nat.pow 10 (fractionPlaces - kept.length)⟩,
        kept.length, r.drop digits.length)
    | r => some (⟨hour, minute, second, 0⟩, 0, r)
  | _ => none

def offset? (s : List Char) : Option Int :=
  match s with
  | ['Z'] => some 0
  | ['z'] => some 0
  | [sign, a, b, ':', c, d] => do
    let hours ← digits? [a, b]
    let minutes ← digits? [c, d]
    if 23 < hours ∨ 59 < minutes then none
    let seconds : Int := 3600 * hours + 60 * minutes
    if sign = '+' then some seconds else if sign = '-' then some (-seconds) else none
  | _ => none

def nextDay (d : Date) : Date :=
  if d.day < daysInMonth d.year d.month then { d with day := d.day + 1 }
  else if d.month < 12 then ⟨d.year, d.month + 1, 1⟩ else ⟨d.year + 1, 1, 1⟩

def settle (date : Date) (time : TimeOfDay) : Date × TimeOfDay :=
  if time.second < 60 then (date, time)
  else if time.minute < 59 then (date, { time with minute := time.minute + 1, second := 0 })
  else if time.hour < 23 then (date, { time with hour := time.hour + 1, minute := 0, second := 0 })
  else (nextDay date, { time with hour := 0, minute := 0, second := 0 })

def moment? (s : List Char) : Option Moment :=
  match time? s with
  | some (time, places, []) => some (.time time places)
  | some _ => none
  | none => do
    let date ← date? (s.take 10)
    match s.drop 10 with
    | [] => some (.date date)
    | sep :: r =>
      if sep ≠ 'T' ∧ sep ≠ 't' ∧ sep ≠ ' ' then none
      let (time, places, r) ← time? r
      if r.isEmpty then some (.dateTime date time places)
      else
        let offset ← offset? r
        let (date, time) := settle date time
        some (.zoned date time offset)

def isMomentChar (c : Char) : Bool :=
  c.isDigit || "-:.TtZz+".toList.contains c

def momentChars (s : Rest) : List Char × Rest :=
  let head := s.takeWhile isMomentChar
  match s.drop head.length with
  | ' ' :: d :: r =>
    if d.isDigit then
      let tail := (d :: r).takeWhile isMomentChar
      (head ++ ' ' :: tail, (d :: r).drop tail.length)
    else (head, ' ' :: d :: r)
  | rest => (head, rest)

def startsMoment (s : Rest) : Bool :=
  match s with
  | a :: b :: c :: r =>
    a.isDigit && b.isDigit &&
      (c == ':' ||
        match r with
        | d :: e :: _ => c.isDigit && d.isDigit && e == '-'
        | _ => false)
  | _ => false

def scalar? (s : Rest) : Option (Scalar × Rest) :=
  match s with
  | [] => none
  | '"' :: _ => (text? s).map fun (t, r) => (.text (String.ofList t), r)
  | '\'' :: _ => (text? s).map fun (t, r) => (.text (String.ofList t), r)
  | 't' :: 'r' :: 'u' :: 'e' :: r => some (.bool true, r)
  | 'f' :: 'a' :: 'l' :: 's' :: 'e' :: r => some (.bool false, r)
  | _ =>
    if startsMoment s then
      let (chars, r) := momentChars s
      (moment? chars).map fun m => (.moment m, r)
    else number? s

end DocSite.Toml
