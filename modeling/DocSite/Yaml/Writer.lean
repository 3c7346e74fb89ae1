import DocSite.Text.Category
import DocSite.Text.Order
import DocSite.Yaml.Alphabet
import DocSite.Yaml.Resolution

namespace DocSite.Yaml

def isIndicator (c : Char) : Bool := "#,[]\x7b\x7d&*!|>'\"%@`".toList.contains c

def hasInnerIndicator : Char → List Char → Bool
  | _, [] => false
  | before, c :: r =>
    (c == ':' && (r.head?.map isBlank).getD true) ||
      (c == '#' && (isBlank before || isBreak before)) || hasInnerIndicator c r

def hasIndicator : List Char → Bool
  | [] => false
  | c :: r =>
    let ends := (r.head?.map isBlank).getD true
    ['-', '-', '-'].isPrefixOf (c :: r) || ['.', '.', '.'].isPrefixOf (c :: r) ||
      isIndicator c || ((c == '?' || c == ':' || c == '-') && ends) || hasInnerIndicator c r

def hasPair (p q : Char → Bool) : List Char → Bool
  | a :: b :: r => (p a && q b) || hasPair p q (b :: r)
  | _ => false

def isMultiline (s : List Char) : Bool := s.any isBreak

def hasSpecial (s : List Char) : Bool := s.any fun c => c != '\t' && !isPrintable c

def plainAllowed (s : List Char) : Bool :=
  s.isEmpty ||
    !((s.head?.map fun c => isSpace c || isBreak c).getD false ||
      (s.getLast?.map fun c => isSpace c || isBreak c).getD false ||
      s.contains '\t' || hasSpecial s || isMultiline s || hasIndicator s)

def singleAllowed (s : List Char) : Bool :=
  !(hasPair isBreak isSpace s || hasPair isSpace isBreak s || s.contains '\t' || hasSpecial s)

def literalAllowed (s : List Char) : Bool :=
  !(s.isEmpty || (s.getLast?.map isSpace).getD false || hasPair isSpace isBreak s || hasSpecial s)

inductive Style
  | plain
  | single
  | double
  | literal
deriving DecidableEq, Repr

def styleOf (s : String) : Style :=
  let chars := s.toList
  if chars.contains '\n' then
    if literalAllowed chars then .literal else .double
  else if readsAsText s then
    if plainAllowed chars then .plain
    else if singleAllowed chars then .single else .double
  else .double

def upperDigits : Nat → Nat → List Char
  | 0, _ => []
  | width + 1, n => upperDigits width (n / 16) ++ [(Nat.digitChar (n % 16)).toUpper]

def escape (c : Char) : List Char :=
  '\\' :: match c.toNat with
    | 0x00 => ['0']
    | 0x07 => ['a']
    | 0x08 => ['b']
    | 0x09 => ['t']
    | 0x0a => ['n']
    | 0x0b => ['v']
    | 0x0c => ['f']
    | 0x0d => ['r']
    | 0x1b => ['e']
    | 0x22 => ['"']
    | 0x5c => ['\\']
    | 0x85 => ['N']
    | 0xa0 => ['_']
    | 0x2028 => ['L']
    | 0x2029 => ['P']
    | n =>
      if n ≤ 0xff then 'x' :: upperDigits 2 n
      else if n ≤ 0xffff then 'u' :: upperDigits 4 n
      else 'U' :: upperDigits 8 n

def writeDouble (s : List Char) : List Char :=
  let marked := s.head? == some '\uFEFF'
  '"' :: (s.flatMap fun c =>
    if marked || !isPrintable c || isBreak c || c == '"' || c == '\\' then escape c else [c]) ++
    ['"']

def spaces (n : Nat) : List Char := List.replicate n ' '

/-- A text between single quotes, where `broken` tells that a line break stands before the rest. The
line after a break is indented. -/
def singleBody (indent : Nat) : Bool → List Char → List Char
  | _, [] => []
  | broken, c :: r =>
    if isBreak c then c :: singleBody indent true r
    else
      (if broken && !isSpace c then spaces indent else []) ++
        (if c = '\'' then ['\'', '\''] else [c]) ++ singleBody indent (broken && isSpace c) r

/-- The lines of a literal block: `broken` tells that a new line is due, `fresh` that it was begun
by a break of the text itself. -/
def literalBody (indent : Nat) : Bool → Bool → List Char → List Char
  | _, _, [] => []
  | broken, fresh, c :: r =>
    if isBreak c then c :: literalBody indent true true r
    else
      (if broken then (if fresh then [] else ['\n']) ++ spaces indent else []) ++
        c :: literalBody indent false false r

/-- How the line breaks at the end of a literal block count: one is kept without a mark, none and
several are marked. -/
def chompMark (s : List Char) : List Char :=
  match s.reverse with
  | [] => ['-']
  | c :: r =>
    if !isBreak c then ['-']
    else match r with
      | [] => ['+']
      | d :: _ => if isBreak d then ['+'] else []

def writeLiteral (indent : Nat) (s : List Char) : List Char :=
  let hint := if (s.head?.map fun c => isSpace c || isBreak c).getD false then ['2'] else []
  '|' :: hint ++ chompMark s ++ literalBody indent true false s

def writeText (indent : Nat) (s : String) : List Char :=
  match styleOf s with
  | .plain => s.toList
  | .single => '\'' :: singleBody indent false s.toList ++ ['\'']
  | .double => writeDouble s.toList
  | .literal => writeLiteral indent s.toList

/-- The order of the keys of a map. Letters come after other characters, but before them right after
a digit; numbers inside keys compare by their value. -/
def naturalBeforeFrom : List Char → List Char → List Char → Bool
  | before, a :: r, b :: s =>
    if a = b then naturalBeforeFrom (a :: before) r s
    else
      let la := Text.isLetter a
      let lb := Text.isLetter b
      if la && lb then a.toNat < b.toNat
      else if la || lb then
        if (before.head?.map Text.isDecimal).getD false then la else lb
      else
        let lead : Int :=
          if (a = '0' ∨ b = '0') ∧ (before.takeWhile Text.isDecimal).any (· != '0') then 1 else 0
        let value (l : List Char) : Int :=
          l.foldl (fun n c => Int.bmod (n * 10 + (c.toNat : Int) - 48) (2 ^ 64)) lead
        let da := (a :: r).takeWhile Text.isDecimal
        let db := (b :: s).takeWhile Text.isDecimal
        if value da ≠ value db then value da < value db
        else if da.length ≠ db.length then da.length < db.length
        else a.toNat < b.toNat
  | _, [], _ :: _ => true
  | _, _, [] => false

def naturalBefore (a b : String) : Bool := naturalBeforeFrom [] a.toList b.toList

/-- A document to be written: texts, truth values, sequences, and mappings whose entries stand in
the order in which they are written. -/
inductive Tree
  | text (s : String)
  | bool (b : Bool)
  | sequence (items : List Tree)
  | mapping (entries : List (String × Tree))
deriving Repr

def isSimpleKey (key : String) : Bool :=
  !isMultiline key.toList && key.utf8ByteSize ≤ 128

def lineEnd (written : List Char) : List Char :=
  if (written.getLast?.map isBreak).getD false then [] else ['\n']

def stack (indent : Nat) : List (List Char) → List Char
  | [] => []
  | [block] => block
  | block :: r => block ++ lineEnd block ++ spaces indent ++ stack indent r

def Tree.isBlock : Tree → Bool
  | .sequence items => !items.isEmpty
  | .mapping entries => !entries.isEmpty
  | _ => false

def entryText (indent : Nat) (key : String) (isBlock : Bool) (value : List Char) : List Char :=
  let value := if isBlock then '\n' :: spaces (indent + 2) ++ value else ' ' :: value
  let keyText := writeText (indent + 2) key
  if isSimpleKey key then keyText ++ ':' :: value
  else '?' :: ' ' :: keyText ++ lineEnd keyText ++ spaces indent ++ ':' :: value

mutual

def writeTree (indent : Nat) : Tree → List Char
  | .text s => writeText indent s
  | .bool b => if b then ['t', 'r', 'u', 'e'] else ['f', 'a', 'l', 's', 'e']
  | .sequence items => if items.isEmpty then ['[', ']'] else stack indent (itemBlocks indent items)
  | .mapping entries =>
    if entries.isEmpty then ['{', '}'] else stack indent (entryBlocks indent entries)

def itemBlocks (indent : Nat) : List Tree → List (List Char)
  | [] => []
  | item :: r => ('-' :: ' ' :: writeTree (indent + 2) item) :: itemBlocks indent r

def entryBlocks (indent : Nat) : List (String × Tree) → List (List Char)
  | [] => []
  | (key, v) :: r =>
    entryText indent key v.isBlock (writeTree (indent + 2) v) :: entryBlocks indent r

end

def write (tree : Tree) : String :=
  let written := writeTree 0 tree
  String.ofList (written ++ lineEnd written)

end DocSite.Yaml
