import DocSite.Yaml.Alphabet

namespace DocSite.Yaml

structure Cursor where
  rest : List Char
  line : Nat
  column : Nat
  index : Nat
deriving Repr

namespace Cursor

def start (text : List Char) : Cursor := ⟨text, 0, 0, 0⟩

def peek? (c : Cursor) : Option Char := c.rest.head?

def skip (c : Cursor) (n : Nat) : Cursor :=
  { c with rest := c.rest.drop n, column := c.column + n, index := c.index + n }

def next (c : Cursor) : Cursor := c.skip 1

def takeWhile (p : Char → Bool) (c : Cursor) : List Char × Cursor :=
  let taken := c.rest.takeWhile p
  (taken, c.skip taken.length)

/-- Passes over a line break. The usual breaks are all read as one character; the separators of
lines and paragraphs stay what they are. -/
def nextLine (c : Cursor) : List Char × Cursor :=
  match c.rest with
  | '\r' :: '\n' :: r => (['\n'], ⟨r, c.line + 1, 0, c.index + 2⟩)
  | b :: r =>
    ([if b.toNat == 0x2028 || b.toNat == 0x2029 then b else '\n'], ⟨r, c.line + 1, 0, c.index + 1⟩)
  | [] => ([], c)

def isGapAt (c : Cursor) (n : Nat) : Bool :=
  match (c.rest.drop n).head? with
  | none => true
  | some ch => isBlank ch || isBreak ch

def isDocumentMark (c : Cursor) (mark : Char) : Bool :=
  c.column == 0 && [mark, mark, mark].isPrefixOf c.rest && c.isGapAt 3

def isDocumentBoundary (c : Cursor) : Bool :=
  c.isDocumentMark '-' || c.isDocumentMark '.'

def skipComment (c : Cursor) : Cursor := (c.takeWhile fun ch => !isBreak ch).2

end Cursor

end DocSite.Yaml
