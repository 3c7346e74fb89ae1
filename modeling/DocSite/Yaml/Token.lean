import DocSite.Yaml.Lexeme

/-!
The tokens of a YAML document. Indentation becomes tokens that open and close block containers. A
key without a mark of its own is recognised only when its colon is met, so the place of every
possible key is remembered, one for each level of brackets, and the tokens of a key are put in
there.
-/

namespace DocSite.Yaml

inductive Token
  | directive (d : Directive)
  | documentStart
  | documentEnd
  | streamEnd
  | sequenceStart
  | mappingStart
  | blockEnd
  | flowSequenceStart
  | flowSequenceEnd
  | flowMappingStart
  | flowMappingEnd
  | entry
  | flowEntry
  | key
  | value
  | alias (name : String)
  | anchor (name : String)
  | tag (handle suffix : String)
  | scalar (text : String) (plain : Bool)
deriving Repr, DecidableEq

structure KeyPlace where
  position : Nat
  line : Nat
  column : Nat
  index : Nat
  required : Bool
deriving Repr

/-- The state of reading tokens. The tokens so far stand in reverse. The columns of the open block
containers are listed from the innermost on; `key` is the possible key at the current level of
brackets, and `outer` has those of the levels around it. -/
structure Scanner where
  cursor : Cursor
  tokens : List Token
  indents : List Nat
  key : Option KeyPlace
  outer : List (Option KeyPlace)
  keyAllowed : Bool
deriving Repr

namespace Scanner

def start (text : List Char) : Scanner := ⟨.start text, [], [], none, [], true⟩

def inFlow (s : Scanner) : Bool := !s.outer.isEmpty

def least (s : Scanner) : Nat :=
  match s.indents with
  | [] => 0
  | i :: _ => i + 1

def emit (s : Scanner) (t : Token) : Scanner := { s with tokens := t :: s.tokens }

def moveTo (s : Scanner) (c : Cursor) : Scanner := { s with cursor := c }

def closeBlocks (closed : List Nat) (tokens : List Token) : List Token :=
  closed.foldl (fun ts _ => .blockEnd :: ts) tokens

def unroll (s : Scanner) (column : Nat) : Scanner :=
  if s.inFlow then s
  else
    { s with
      tokens := closeBlocks (s.indents.takeWhile (column < ·)) s.tokens
      indents := s.indents.dropWhile (column < ·) }

def unrollAll (s : Scanner) : Scanner :=
  if s.inFlow then s else { s with tokens := closeBlocks s.indents s.tokens, indents := [] }

def depthLimit : Nat := 10000

def roll (s : Scanner) (column back : Nat) (t : Token) : Option Scanner :=
  if s.inFlow || column < s.least then some s
  else if depthLimit ≤ s.indents.length then none
  else
    some { s with
      indents := column :: s.indents
      tokens := s.tokens.take back ++ t :: s.tokens.drop back }

def dropKey (s : Scanner) : Option Scanner :=
  match s.key with
  | some k => if k.required then none else some { s with key := none }
  | none => some s

def saveKey (s : Scanner) : Option Scanner :=
  if s.keyAllowed then do
    let c := s.cursor
    let required := !s.inFlow && s.indents.head? == some c.column
    let s ← s.dropKey
    some { s with key := some ⟨s.tokens.length, c.line, c.column, c.index, required⟩ }
  else some s

/-- The possible key, if its colon would still come in time: on the same line and within 1024
characters. A key that must be there and is too far away is a fault. -/
def liveKey (s : Scanner) : Option (Option KeyPlace) :=
  match s.key with
  | none => some none
  | some k =>
    if k.line < s.cursor.line || k.index + 1024 < s.cursor.index then
      if k.required then none else some none
    else some (some k)

def skipComments : Nat → Cursor → Cursor
  | 0, c => c
  | fuel + 1, c =>
    let c := c.skipComment
    let between := c.rest.takeWhile fun ch => isBlank ch || isBreak ch
    if (c.rest.drop between.length).head? = some '#' && between.length < 512 then
      skipComments fuel (walk between.length c)
    else c
where
  walk : Nat → Cursor → Cursor
    | 0, c => c
    | n + 1, c =>
      match c.rest with
      | '\r' :: '\n' :: _ => walk (n - 1) c.nextLine.2
      | ch :: _ => if isBreak ch then walk n c.nextLine.2 else walk n c.next
      | [] => c

/-- Passes over blanks, comments and line breaks to the next token. A new line outside brackets may
start a key; where a key may start, a tab is no blank. -/
def toNextToken : Nat → Scanner → Scanner
  | 0, s => s
  | fuel + 1, s =>
    let (_, c) := s.cursor.takeWhile fun ch =>
      ch == ' ' || ((s.inFlow || !s.keyAllowed) && ch == '\t')
    let c := if c.peek? = some '#' then skipComments (c.rest.length + 1) c else c
    match c.peek? with
    | some ch =>
      if isBreak ch then
        toNextToken fuel { s with cursor := c.nextLine.2, keyAllowed := s.keyAllowed || !s.inFlow }
      else s.moveTo c
    | none => s.moveTo c

def skipLineComment (s : Scanner) : Scanner :=
  let (_, c) := s.cursor.takeWhile isBlank
  if c.peek? = some '#' then s.moveTo c.skipComment else s

def isReserved (c : Char) : Bool :=
  isBlank c || isBreak c || "-?:,[]\x7b\x7d#&*!|>'\"%@`".toList.contains c

def sign (s : Scanner) (t : Token) : Scanner := (s.moveTo s.cursor.next).emit t

def openFlow (s : Scanner) (t : Token) : Option Scanner := do
  let s ← s.saveKey
  if depthLimit ≤ s.outer.length then none
  else some ({ s with outer := s.key :: s.outer, key := none, keyAllowed := true }.sign t)

def closeFlow (s : Scanner) (t : Token) : Option Scanner := do
  let s ← s.dropKey
  let s := match s.outer with
    | [] => s
    | k :: r => { s with key := k, outer := r }
  some ({ s with keyAllowed := false }.sign t)

def flowEntry (s : Scanner) : Option Scanner := do
  let s ← s.dropKey
  some ({ s with keyAllowed := true }.sign .flowEntry)

def blockEntry (s : Scanner) : Option Scanner := do
  let s ← if s.inFlow then some s
    else if !s.keyAllowed then none else s.roll s.cursor.column 0 .sequenceStart
  let s ← s.dropKey
  some ({ s with keyAllowed := true }.sign .entry)

def markedKey (s : Scanner) : Option Scanner := do
  let s ← if s.inFlow then some s
    else if !s.keyAllowed then none else s.roll s.cursor.column 0 .mappingStart
  let s ← s.dropKey
  some ({ s with keyAllowed := !s.inFlow }.sign .key)

def colon (s : Scanner) : Option Scanner := do
  match ← s.liveKey with
  | some k =>
    let back := s.tokens.length - k.position
    let s := { s with tokens := s.tokens.take back ++ Token.key :: s.tokens.drop back, key := none }
    let s ← s.roll k.column (back + 1) .mappingStart
    some ({ s with keyAllowed := false }.sign .value)
  | none =>
    let s := { s with key := none }
    let s ← if s.inFlow then some s
      else if !s.keyAllowed then none else s.roll s.cursor.column 0 .mappingStart
    some ({ s with keyAllowed := !s.inFlow }.sign .value)

def keyPart (s : Scanner) (read : Cursor → Option (Token × Cursor)) : Option Scanner := do
  let s ← s.saveKey
  let (t, c) ← read s.cursor
  some (({ s with keyAllowed := false }.moveTo c).emit t)

def blockScalar (s : Scanner) (literal : Bool) : Option Scanner := do
  let s ← s.dropKey
  let (text, c) ← readBlock literal s.least s.cursor
  some (({ s with keyAllowed := true }.moveTo c).emit (.scalar (String.ofList text) false))

def plainScalar (s : Scanner) : Option Scanner := do
  let s ← s.saveKey
  let (text, broken, c) ← readPlain s.inFlow s.least s.cursor
  some (({ s with keyAllowed := broken }.moveTo c).emit (.scalar (String.ofList text) true))

def finish (s : Scanner) : Option Scanner := do
  let s ← s.unrollAll.dropKey
  some ({ s with keyAllowed := false }.emit .streamEnd)

def documentMark (s : Scanner) (t : Token) : Option Scanner := do
  let s ← s.unrollAll.dropKey
  some (({ s with keyAllowed := false }.moveTo (s.cursor.skip 3)).emit t)

def directive (s : Scanner) : Option Scanner := do
  let s ← s.unrollAll.dropKey
  let (d, c) ← readDirective s.cursor
  some (({ s with keyAllowed := false }.moveTo c).emit (.directive d))

def contentToken (s : Scanner) (ch : Char) : Option Scanner :=
  let gapNext := s.cursor.isGapAt 1
  match ch with
  | '[' => s.openFlow .flowSequenceStart
  | '{' => s.openFlow .flowMappingStart
  | ']' => s.closeFlow .flowSequenceEnd
  | '}' => s.closeFlow .flowMappingEnd
  | ',' => s.flowEntry
  | '*' => s.keyPart fun c => (readAnchor c).map fun (name, c) => (.alias name, c)
  | '&' => s.keyPart fun c => (readAnchor c).map fun (name, c) => (.anchor name, c)
  | '!' => s.keyPart fun c => (readTag c).map fun (handle, suffix, c) => (.tag handle suffix, c)
  | '\'' => s.keyPart fun c =>
    (readQuoted .single c).map fun (text, c) => (.scalar (String.ofList text) false, c)
  | '"' => s.keyPart fun c =>
    (readQuoted .double c).map fun (text, c) => (.scalar (String.ofList text) false, c)
  | _ =>
    if ch = '-' ∧ gapNext then s.blockEntry
    else if ch = '?' ∧ (s.inFlow ∨ gapNext) then s.markedKey
    else if ch = ':' ∧ (s.inFlow ∨ gapNext) then s.colon
    else if ch = '|' ∧ !s.inFlow then s.blockScalar true
    else if ch = '>' ∧ !s.inFlow then s.blockScalar false
    else if !isReserved ch ∨ ch = '-' ∨ (!s.inFlow ∧ (ch = '?' ∨ ch = ':')) then s.plainScalar
    else none

def endsInEntry (s : Scanner) : Bool := s.tokens.head? == some .entry

def step (s : Scanner) : Option Scanner :=
  let s := toNextToken (s.cursor.rest.length + 1) s
  let s := s.unroll s.cursor.column
  match s.cursor.peek? with
  | none => s.finish
  | some ch =>
    if s.cursor.column = 0 ∧ ch = '%' then s.directive
    else if s.cursor.isDocumentMark '-' then s.documentMark .documentStart
    else if s.cursor.isDocumentMark '.' then s.documentMark .documentEnd
    else do
      let line := s.cursor.line
      let s ← s.contentToken ch
      some (if s.endsInEntry || (s.cursor.line ≠ line && s.cursor.column = 0) then s
        else s.skipLineComment)

end Scanner

structure Scan where
  tokens : List Token
  complete : Bool
deriving Repr

def scanFrom : Nat → Scanner → Scan
  | 0, s => ⟨s.tokens.reverse, false⟩
  | fuel + 1, s =>
    match s.step with
    | none => ⟨s.tokens.reverse, false⟩
    | some s =>
      if s.tokens.head? = some .streamEnd then ⟨s.tokens.reverse, true⟩ else scanFrom fuel s

def scan (text : List Char) : Scan :=
  scanFrom (text.length + 1) (.start text)

end DocSite.Yaml
