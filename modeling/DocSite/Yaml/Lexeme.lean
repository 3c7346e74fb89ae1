import DocSite.Link.Reference
import DocSite.Yaml.Cursor

namespace DocSite.Yaml

structure Gap where
  spaces : List Char
  broken : Bool
  first : List Char
  further : List Char
deriving Repr

namespace Gap

def empty : Gap := ⟨[], false, [], []⟩

def escaped : Gap := ⟨[], true, [], []⟩

/-- What a gap stands for: its blanks, or for breaks a single space or the breaks after the
first. -/
def text (g : Gap) : List Char :=
  if g.broken then
    if g.first = ['\n'] then
      if g.further.isEmpty then [' '] else g.further.reverse
    else g.first ++ g.further.reverse
  else g.spaces.reverse

end Gap

def readGap (indent : Nat) : Nat → Gap → Cursor → Option (Gap × Cursor)
  | 0, _, _ => none
  | fuel + 1, g, c =>
    match c.peek? with
    | none => some (g, c)
    | some ch =>
      if isBlank ch then
        if g.broken && c.column < indent && ch == '\t' then none
        else
          readGap indent fuel (if g.broken then g else { g with spaces := ch :: g.spaces }) c.next
      else if isBreak ch then
        let (b, c) := c.nextLine
        readGap indent fuel
          (if g.broken then { g with further := b ++ g.further } else ⟨[], true, b, []⟩) c
      else some (g, c)

def escapes : List (Char × Char) :=
  [('0', '\x00'), ('a', '\x07'), ('b', '\x08'), ('t', '\t'), ('\t', '\t'), ('n', '\n'),
    ('v', '\x0b'), ('f', '\x0c'), ('r', '\r'), ('e', '\x1b'), (' ', ' '), ('"', '"'), ('\'', '\''),
    ('\\', '\\'), ('N', '\u0085'), ('_', '\u00a0'), ('L', '\u2028'), ('P', '\u2029')]

def codeLength? (c : Char) : Option Nat :=
  match c with
  | 'x' => some 2
  | 'u' => some 4
  | 'U' => some 8
  | _ => none

def hexNumber? : Nat → List Char → Option Nat
  | n, [] => some n
  | n, c :: r => (Link.hexValue? c).bind fun d => hexNumber? (16 * n + d) r

def charOf? (n : Nat) : Option Char :=
  if (0xd800 ≤ n ∧ n ≤ 0xdfff) ∨ 0x10ffff < n then none else some (Char.ofNat n)

def readEscape (c : Cursor) : Option (Char × Cursor) :=
  match c.rest with
  | _ :: letter :: r =>
    match escapes.lookup letter, codeLength? letter with
    | some ch, _ => some (ch, c.skip 2)
    | none, some n =>
      if (r.take n).length < n then none
      else ((hexNumber? 0 (r.take n)).bind charOf?).map fun ch => (ch, c.skip (2 + n))
    | none, none => none
  | _ => none

inductive Quote
  | single
  | double
deriving DecidableEq, Repr

def Quote.sign : Quote → Char
  | .single => '\''
  | .double => '"'

def readQuotedWord (quote : Quote) : Nat → List Char → Cursor → Option (List Char × Bool × Cursor)
  | 0, _, _ => none
  | fuel + 1, word, c =>
    match c.rest with
    | [] => some (word, false, c)
    | ch :: r =>
      if isBlank ch || isBreak ch then some (word, false, c)
      else match quote with
        | .single =>
          if ch = '\'' then
            if r.head? = some '\'' then readQuotedWord quote fuel ('\'' :: word) (c.skip 2)
            else some (word, false, c)
          else readQuotedWord quote fuel (ch :: word) c.next
        | .double =>
          if ch = '"' then some (word, false, c)
          else if ch = '\\' then
            if (r.head?.map isBreak).getD false then some (word, true, c.next.nextLine.2)
            else match readEscape c with
              | none => none
              | some (e, c) => readQuotedWord quote fuel (e :: word) c
          else readQuotedWord quote fuel (ch :: word) c.next

def readQuotedRest (quote : Quote) : Nat → List Char → Cursor → Option (List Char × Cursor)
  | 0, _, _ => none
  | fuel + 1, text, c =>
    if c.isDocumentBoundary || c.rest.isEmpty then none
    else match readQuotedWord quote (c.rest.length + 1) text c with
      | none => none
      | some (text, escaped, c) =>
        if c.peek? = some quote.sign then some (text.reverse, c.next)
        else match readGap 0 (c.rest.length + 1) (if escaped then .escaped else .empty) c with
          | none => none
          | some (gap, c) => readQuotedRest quote fuel (gap.text.reverse ++ text) c

def readQuoted (quote : Quote) (c : Cursor) : Option (List Char × Cursor) :=
  readQuotedRest quote (c.rest.length + 1) [] c.next

def isFlowSign (c : Char) : Bool :=
  c == ',' || c == '?' || c == '[' || c == ']' || c == '{' || c == '}'

def readPlainWord (inFlow : Bool) : List Char → List Char → List Char
  | word, ch :: r =>
    let ends := (r.head?.map fun n => isBlank n || isBreak n).getD true
    if isBlank ch || isBreak ch || (ch == ':' && ends) || (inFlow && isFlowSign ch) then word
    else readPlainWord inFlow (ch :: word) r
  | word, [] => word

/-- Reads the words of a plain scalar and the gaps between them. The flag tells that the scalar was
followed by a line break, which is passed over. -/
def readPlainRest (inFlow : Bool) (indent : Nat) :
    Nat → List Char → Gap → Cursor → Option (List Char × Bool × Cursor)
  | 0, _, _, _ => none
  | fuel + 1, text, gap, c =>
    if c.isDocumentBoundary || c.peek? == some '#' then some (text.reverse, gap.broken, c)
    else
      let word := readPlainWord inFlow [] c.rest
      let text := if word.isEmpty then text else word ++ gap.text.reverse ++ text
      let gap := if word.isEmpty then gap else .empty
      let c := c.skip word.length
      if c.rest.isEmpty || !c.isGapAt 0 then some (text.reverse, gap.broken, c)
      else match readGap indent (c.rest.length + 1) gap c with
        | none => none
        | some (gap, c) =>
          if !inFlow && c.column < indent then some (text.reverse, gap.broken, c)
          else readPlainRest inFlow indent fuel text gap c

def readPlain (inFlow : Bool) (indent : Nat) (c : Cursor) : Option (List Char × Bool × Cursor) :=
  readPlainRest inFlow indent (c.rest.length + 1) [] .empty c

inductive Chomping
  | strip
  | clip
  | keep
deriving DecidableEq, Repr

def readChomping (c : Cursor) : Chomping × Cursor :=
  match c.peek? with
  | some '+' => (.keep, c.next)
  | some '-' => (.strip, c.next)
  | _ => (.clip, c)

def readIncrement (c : Cursor) : Option (Nat × Cursor) :=
  match c.peek? with
  | some d =>
    if d = '0' then none
    else if d.isDigit then some (d.toNat - 48, c.next) else some (0, c)
  | none => some (0, c)

def readBlockMarks (c : Cursor) : Option (Chomping × Nat × Cursor) :=
  match readChomping c with
  | (.clip, c) => do
    let (increment, c) ← readIncrement c
    let (chomping, c) := if increment = 0 then (.clip, c) else readChomping c
    some (chomping, increment, c)
  | (chomping, c) => do
    let (increment, c) ← readIncrement c
    some (chomping, increment, c)

def readLineEnd (c : Cursor) : Option Cursor :=
  let (_, c) := c.takeWhile isBlank
  let c := if c.peek? = some '#' then c.skipComment else c
  match c.peek? with
  | none => some c
  | some ch => if isBreak ch then some c.nextLine.2 else none

def readBlockBreaks (indent : Nat) :
    Nat → Nat → List Char → Cursor → Option (List Char × Nat × Cursor)
  | 0, _, _, _ => none
  | fuel + 1, widest, breaks, c =>
    let room := (c.rest.takeWhile isSpace).length
    let c := c.skip (if indent = 0 then room else min room (indent - c.column))
    let widest := max widest c.column
    match c.peek? with
    | none => some (breaks, widest, c)
    | some ch =>
      if (indent = 0 || c.column < indent) && ch == '\t' then none
      else if isBreak ch then
        let (b, c) := c.nextLine
        readBlockBreaks indent fuel widest (b ++ breaks) c
      else some (breaks, widest, c)

structure BlockText where
  text : List Char
  lastBreak : List Char
  breaks : List Char
  blank : Bool
deriving Repr

/-- Joins the text so far with the next line. In a folded scalar a single break between two lines
that start with no blank becomes a space. -/
def BlockText.join (literal : Bool) (startsBlank : Bool) (b : BlockText) : List Char :=
  let folded := !literal && !b.blank && !startsBlank && b.lastBreak == ['\n']
  b.breaks ++ (if folded then (if b.breaks.isEmpty then [' '] else []) else b.lastBreak) ++ b.text

def readBlockLines (literal : Bool) (indent : Nat) :
    Nat → BlockText → Cursor → Option (BlockText × Cursor)
  | 0, _, _ => none
  | fuel + 1, b, c =>
    match c.peek? with
    | none => some (b, c)
    | some ch =>
      if c.column ≠ indent then some (b, c)
      else
        let blank := isBlank ch
        let (line, c) := c.takeWhile fun ch => !isBreak ch
        let text := line.reverse ++ b.join literal blank
        let (lastBreak, c) := c.nextLine
        match readBlockBreaks indent (c.rest.length + 1) 0 [] c with
        | none => none
        | some (breaks, _, c) =>
          readBlockLines literal indent fuel ⟨text, lastBreak, breaks, blank⟩ c

/-- Reads a block scalar from its sign on; `least` is the least indentation it may have, which is
one more than that of its container. -/
def readBlock (literal : Bool) (least : Nat) (c : Cursor) : Option (List Char × Cursor) := do
  let (chomping, increment, c) ← readBlockMarks c.next
  let c ← readLineEnd c
  let told := if increment = 0 then 0 else if least = 0 then increment else least - 1 + increment
  let (breaks, widest, c) ← readBlockBreaks told (c.rest.length + 1) 0 [] c
  let indent := if told = 0 then max widest (max least 1) else told
  let (b, c) ← readBlockLines literal indent (c.rest.length + 1) ⟨[], [], breaks, false⟩ c
  let tail := match chomping with
    | .strip => b.text
    | .clip => b.lastBreak ++ b.text
    | .keep => b.breaks ++ b.lastBreak ++ b.text
  some (tail.reverse, c)

def isTagChar (c : Char) : Bool :=
  isWordChar c || ";/?:@&=+$,.!~*'()[]%".toList.contains c

def decodeTag : Nat → List Char → Option (List Char)
  | 0, _ => none
  | _ + 1, [] => some []
  | fuel + 1, '%' :: r =>
    match r with
    | a :: b :: r => do
      let n ← hexNumber? 0 [a, b]
      if n < 0x80 then (decodeTag fuel r).map (Char.ofNat n :: ·)
      else
        let width :=
          if n / 32 = 6 then 1 else if n / 16 = 14 then 2 else if n / 8 = 30 then 3 else 0
        if width = 0 then none
        else do
          let (code, r) ← continuation width (n % 2 ^ (6 - width)) r
          (decodeTag fuel r).map (Char.ofNat code :: ·)
    | _ => none
  | fuel + 1, c :: r => (decodeTag fuel r).map (c :: ·)
where
  continuation : Nat → Nat → List Char → Option (Nat × List Char)
    | 0, code, r => some (code, r)
    | width + 1, code, '%' :: a :: b :: r => do
      let n ← hexNumber? 0 [a, b]
      if n / 64 = 2 then continuation width (64 * code + n % 64) r else none
    | _ + 1, _, _ => none

def readTagChars (c : Cursor) : Option (List Char × Cursor) := do
  let (taken, c) := c.takeWhile isTagChar
  let text ← decodeTag (taken.length + 1) taken
  some (text, c)

def readHandle (c : Cursor) : List Char × Cursor :=
  let (word, c) := c.next.takeWhile isWordChar
  if c.peek? = some '!' then ('!' :: word ++ ['!'], c.next) else ('!' :: word, c)

def readTag (c : Cursor) : Option (String × String × Cursor) := do
  let (handle, suffix, c) ←
    if (c.rest.drop 1).head? = some '<' then do
      let (uri, c) ← readTagChars (c.skip 2)
      if uri.isEmpty || c.peek? ≠ some '>' then none
      else some ([], uri, c.next)
    else
      let (handle, c) := readHandle c
      if handle.length > 1 && handle.getLast? == some '!' then do
        let (suffix, c) ← readTagChars c
        if suffix.isEmpty then none else some (handle, suffix, c)
      else do
        let (more, c) ← readTagChars c
        let suffix := handle.drop 1 ++ more
        if suffix.isEmpty then some ([], ['!'], c) else some (['!'], suffix, c)
  if c.isGapAt 0 then some (String.ofList handle, String.ofList suffix, c) else none

def readAnchor (c : Cursor) : Option (String × Cursor) :=
  let (name, c) := c.next.takeWhile isWordChar
  let ends := match c.peek? with
    | none => true
    | some ch => isBlank ch || isBreak ch || "?:,]\x7d%@`".toList.contains ch
  if name.isEmpty || !ends then none else some (String.ofList name, c)

inductive Directive
  | version (major minor : Nat)
  | tag (handle expansion : String)
deriving Repr, DecidableEq

def readVersionNumber (c : Cursor) : Option (Nat × Cursor) :=
  let (digits, c) := c.takeWhile Char.isDigit
  if digits.isEmpty || 2 < digits.length then none
  else some (digits.foldl (fun n d => 10 * n + (d.toNat - 48)) 0, c)

def readDirective (c : Cursor) : Option (Directive × Cursor) := do
  let (name, c) := c.next.takeWhile isWordChar
  if name.isEmpty || !c.isGapAt 0 then none
  let (_, c) := c.takeWhile isBlank
  if name = "YAML".toList then
    let (major, c) ← readVersionNumber c
    if c.peek? ≠ some '.' then none
    let (minor, c) ← readVersionNumber c.next
    let c ← readLineEnd c
    some (.version major minor, c)
  else if name = "TAG".toList then
    if c.peek? ≠ some '!' then none
    let (handle, c) := readHandle c
    if handle ≠ ['!'] ∧ (handle.length = 1 ∨ handle.getLast? ≠ some '!') then none
    if !((c.peek?.map isBlank).getD false) then none
    let (_, c) := c.takeWhile isBlank
    let (expansion, c) ← readTagChars c
    if expansion.isEmpty || !c.isGapAt 0 then none
    let c ← readLineEnd c
    some (.tag (String.ofList handle) (String.ofList expansion), c)
  else none

end DocSite.Yaml
