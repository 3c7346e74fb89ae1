import DocSite.Toml.Lexeme
import DocSite.Toml.Table

namespace DocSite.Toml

def keyPart? (s : Rest) : Option (String × Rest) :=
  match s with
  | '"' :: _ => (shortText? s).map fun (t, r) => (String.ofList t, r)
  | '\'' :: _ => (shortText? s).map fun (t, r) => (String.ofList t, r)
  | _ =>
    let bare := s.takeWhile isBareKeyChar
    if bare.isEmpty then none else some (String.ofList bare, s.drop bare.length)

def key? : Nat → Rest → Option (List String × Rest)
  | 0, _ => none
  | fuel + 1, s => do
    let (part, r) ← keyPart? s
    match skipBlanks r with
    | '.' :: r =>
      let (more, r) ← key? fuel (skipBlanks r)
      some (part :: more, r)
    | r => some ([part], r)

def skipSpace : Nat → Rest → Option Rest
  | 0, _ => none
  | fuel + 1, s =>
    match skipBlanks s with
    | '#' :: r =>
      match comment? r with
      | none => none
      | some r => skipSpace fuel r
    | '\n' :: r => skipSpace fuel r
    | '\r' :: '\n' :: r => skipSpace fuel r
    | '\r' :: _ => none
    | r => some r

mutual

def value? : Nat → Rest → Option (Value × Rest)
  | 0, _ => none
  | fuel + 1, s =>
    match s with
    | '[' :: r => (items? fuel true r).map fun (items, r) => (.list items, r)
    | '{' :: r =>
      (inlineFields? fuel true [] r).map fun (slots, r) =>
        (.mapping .plain (Slots.entries slots), r)
    | s => (scalar? s).map fun (x, r) => (.scalar x, r)

def items? : Nat → Bool → Rest → Option (List Value × Rest)
  | 0, _, _ => none
  | fuel + 1, first, s => do
    match ← skipSpace (s.length + 1) s with
    | ']' :: r => some ([], r)
    | ',' :: r =>
      if first then none
      match ← skipSpace (r.length + 1) r with
      | ']' :: r => some ([], r)
      | r => item? fuel r
    | r => if first then item? fuel r else none

def item? : Nat → Rest → Option (List Value × Rest)
  | 0, _ => none
  | fuel + 1, s => do
    let (v, r) ← value? fuel s
    let (rest, r) ← items? fuel false r
    some (v :: rest, r)

def inlineFields? : Nat → Bool → Slots → Rest → Option (Slots × Rest)
  | 0, _, _, _ => none
  | fuel + 1, first, slots, s => do
    match skipBlanks s with
    | '}' :: r => some (slots, r)
    | r =>
      let r ← if first then some r else (expect? ',' r).map skipBlanks
      let (key, r) ← key? (r.length + 1) r
      let r ← expect? '=' r
      let (v, r) ← value? fuel (skipBlanks r)
      let slots ← Slots.assign key v slots
      inlineFields? fuel false slots r

end

/-- A document while it is read: its tables, and the path of the one that keys belong to. -/
structure Document where
  slots : Slots
  current : List String
deriving Repr

def header? (doc : Document) (s : Rest) : Option (Document × Rest) :=
  match s with
  | '[' :: '[' :: r => do
    let r := skipBlanks r
    let (path, r) ← key? (r.length + 1) r
    let r ← expect? ']' r
    let r ← expect? ']' r
    let slots ← Slots.append path (Slots.seal doc.slots)
    some (⟨slots, path⟩, r)
  | '[' :: r => do
    let r := skipBlanks r
    let (path, r) ← key? (r.length + 1) r
    let r ← expect? ']' r
    let slots ← Slots.declare path (Slots.seal doc.slots)
    some (⟨slots, path⟩, r)
  | _ => none

def keyValue? (doc : Document) (s : Rest) : Option (Document × Rest) := do
  let (path, r) ← key? (s.length + 1) s
  let r ← expect? '=' r
  let r := skipBlanks r
  let (v, r) ← value? (2 * r.length + 2) r
  let slots ← Slots.within (Slots.assign path v) doc.current doc.slots
  some (⟨slots, doc.current⟩, r)

def line? (doc : Document) (s : Rest) : Option (Document × Rest) := do
  let s := skipBlanks s
  let (doc, r) ← match s with
    | [] => some (doc, s)
    | c :: _ =>
      if c = '#' ∨ c = '\n' ∨ c = '\r' then some (doc, s)
      else if c = '[' then header? doc s
      else keyValue? doc s
  match skipBlanks r with
  | '#' :: r => (comment? r).map fun r => (doc, r)
  | r => some (doc, r)

def lines? : Nat → Document → Rest → Option Document
  | 0, _, _ => none
  | fuel + 1, doc, s => do
    let (doc, r) ← line? doc s
    if r.isEmpty then some doc
    else
      let r ← newline? r
      lines? fuel doc r

def parse? (text : List Char) : Option Fields :=
  (lines? (text.length + 1) ⟨[], []⟩ text).bind fun doc =>
    Value.textKeyed? (Slots.entries doc.slots)

end DocSite.Toml
