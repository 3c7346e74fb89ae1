namespace DocSite.Link

def isAsciiLetter (c : Char) : Bool :=
  ('a' ≤ c && c ≤ 'z') || ('A' ≤ c && c ≤ 'Z')

def isAsciiDigit (c : Char) : Bool := '0' ≤ c && c ≤ '9'

def isSchemeChar (c : Char) : Bool :=
  isAsciiLetter c || isAsciiDigit c || c == '+' || c == '-' || c == '.'

def hexValue? (c : Char) : Option Nat :=
  if '0' ≤ c ∧ c ≤ '9' then some (c.toNat - '0'.toNat)
  else if 'a' ≤ c ∧ c ≤ 'f' then some (c.toNat - 'a'.toNat + 10)
  else if 'A' ≤ c ∧ c ≤ 'F' then some (c.toNat - 'A'.toNat + 10)
  else none

def cut (sep : Char) : List Char → List Char × Option (List Char)
  | [] => ([], none)
  | c :: r =>
    if c = sep then ([], some r)
    else
      let (before, after) := cut sep r
      (c :: before, after)

def cutLast (sep : Char) (s : List Char) : Option (List Char) × List Char :=
  match cut sep s.reverse with
  | (tail, none) => (none, tail.reverse)
  | (tail, some head) => (some head.reverse, tail.reverse)

def escapesOk (allowed : Nat → Bool) (plain : Char → Bool) : List Char → Bool
  | [] => true
  | '%' :: a :: b :: r =>
    match hexValue? a, hexValue? b with
    | some h, some l => allowed (16 * h + l) && escapesOk allowed plain r
    | _, _ => false
  | c :: r => c != '%' && plain c && escapesOk allowed plain r

def isHostChar (c : Char) : Bool :=
  0x80 ≤ c.toNat || isAsciiLetter c || isAsciiDigit c ||
    "!$&'()*+,;=:[]<>\"-_.~".toList.contains c

def isHostByte (n : Nat) : Bool := 0x80 ≤ n || n == 0x25

/-- The bytes a zone may hold escaped: the ASCII characters that a host may hold plainly, the space
and the percent sign. -/
def isZoneByte (n : Nat) : Bool :=
  n == 0x25 || n == 0x20 || (n < 0x80 && isHostChar (Char.ofNat n))

def isUserChar (c : Char) : Bool :=
  isAsciiLetter c || isAsciiDigit c || "-._:~!$&'()*+,;=%@".toList.contains c

def isOptionalPort : List Char → Bool
  | [] => true
  | c :: r => c == ':' && r.all isAsciiDigit

def cutZone : List Char → List Char × Option (List Char)
  | [] => ([], none)
  | '%' :: '2' :: '5' :: r => ([], some ('%' :: '2' :: '5' :: r))
  | c :: r =>
    let (before, after) := cutZone r
    (c :: before, after)

/-- Whether a text is a host with an optional port. A host in brackets may end in a zone, whose
escapes are freer. -/
def isHost (s : List Char) : Bool :=
  let plain := escapesOk isHostByte isHostChar
  match s with
  | '[' :: _ =>
    match cutLast ']' s with
    | (none, _) => false
    | (some inside, port) =>
      isOptionalPort port &&
        match cutZone inside with
        | (_, none) => plain s
        | (address, some zone) =>
          plain address && escapesOk isZoneByte isHostChar zone && plain (']' :: port)
  | _ =>
    match cutLast ':' s with
    | (none, _) => plain s
    | (some _, port) => isOptionalPort (':' :: port) && plain s

def hostOf? (authority : List Char) : Option (List Char) :=
  match cutLast '@' authority with
  | (none, host) => if isHost host then some host else none
  | (some user, host) =>
    if isHost host && user.all isUserChar && escapesOk (fun _ => true) (fun _ => true) user then
      some host
    else none

def scheme? (s : List Char) : Option (List Char × List Char) :=
  match s with
  | [] => some ([], [])
  | c :: _ =>
    if c = ':' then none
    else if isAsciiLetter c then
      match s.dropWhile isSchemeChar with
      | ':' :: rest => some (s.takeWhile isSchemeChar, rest)
      | _ => some ([], s)
    else some ([], s)

structure Reference where
  scheme : List Char
  host : List Char
  path : List Char
deriving Repr, DecidableEq

def isControl (c : Char) : Bool := c.toNat < 0x20 || c.toNat == 0x7f

def isEscaped (s : List Char) : Bool := escapesOk (fun _ => true) (fun _ => true) s

def Reference.ofHierarchy? (scheme rest : List Char) : Option Reference :=
  let withPath (host path : List Char) :=
    if isEscaped path then some ⟨scheme, host, path⟩ else none
  match rest with
  | '/' :: '/' :: after =>
    if scheme.isEmpty && after.head? == some '/' then withPath [] rest
    else
      match hostOf? (after.takeWhile (· != '/')) with
      | some host => withPath host (after.dropWhile (· != '/'))
      | none => none
  | '/' :: _ => withPath [] rest
  | _ =>
    if !scheme.isEmpty then some ⟨scheme, [], []⟩
    else if (rest.takeWhile (· != '/')).contains ':' then none
    else withPath [] rest

def Reference.parse? (s : List Char) : Option Reference :=
  let (body, fragment) := cut '#' s
  if body.any isControl then none
  else
    match scheme? body with
    | none => none
    | some (scheme, rest) =>
      match Reference.ofHierarchy? scheme (cut '?' rest).1 with
      | none => none
      | some reference => if isEscaped (fragment.getD []) then some reference else none

end DocSite.Link
