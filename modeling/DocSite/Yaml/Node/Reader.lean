import DocSite.Yaml.Node.Basic
import DocSite.Yaml.Token

namespace DocSite.Yaml

structure Anchor where
  name : String
  serial : Nat
  node : Option Node
deriving Repr

structure Reading where
  tokens : List Token
  anchors : List Anchor
  handles : List (String × String)
deriving Repr

abbrev NodeReader := StateT Reading Option

namespace NodeReader

def peek : NodeReader Token := fun r =>
  match r.tokens with
  | [] => none
  | t :: _ => some (t, r)

def advance : NodeReader Unit := fun r => some ((), { r with tokens := r.tokens.drop 1 })

def next : NodeReader Token := do
  let t ← peek
  advance
  return t

def nothing : Node := .scalar none true ""

def aliased (name : String) : NodeReader Node := do
  match (← get).anchors.find? (·.name == name) with
  | some anchor => return .alias name anchor.node
  | none => failure

def openAnchor (name : Option String) : NodeReader Nat := do
  let r ← get
  let serial := r.anchors.length
  match name with
  | some name => set { r with anchors := ⟨name, serial, none⟩ :: r.anchors }
  | none => pure ()
  return serial

def closeAnchor (name : Option String) (serial : Nat) (node : Node) : NodeReader Node := do
  if name.isSome then
    modify fun r => { r with
      anchors := r.anchors.map fun a =>
        if a.serial = serial then { a with node := some node } else a }
  return node

def fullTag (handle suffix : String) : NodeReader String := do
  if handle = "" then return suffix
  else match (← get).handles.lookup handle with
    | some expansion => return expansion ++ suffix
    | none => failure

def standardTags : String := "tag:yaml.org,2002:"

def shortForm (tag : String) : Option String :=
  if tag = "!" then none
  else if standardTags.toList.isPrefixOf tag.toList then
    some ("!!" ++ String.ofList (tag.toList.drop standardTags.length))
  else some tag

def properties : NodeReader (Option String × Option String) := do
  match ← peek with
  | .anchor name =>
    advance
    match ← peek with
    | .tag handle suffix =>
      advance
      return (some name, some (← fullTag handle suffix))
    | _ => return (some name, none)
  | .tag handle suffix =>
    advance
    match ← peek with
    | .anchor name =>
      advance
      return (some name, some (← fullTag handle suffix))
    | _ => return (none, some (← fullTag handle suffix))
  | _ => return (none, none)

mutual

/-- A node. Block containers may stand outside brackets only; a sequence under a key may stand
without an indentation of its own. -/
def node : Nat → Bool → Bool → NodeReader Node
  | 0, _, _ => failure
  | fuel + 1, block, flat => do
    match ← peek with
    | .alias name =>
      advance
      aliased name
    | _ =>
      let (anchor, tag) ← properties
      let serial ← openAnchor anchor
      let short := tag.bind shortForm
      match ← peek, block, flat with
      | .entry, _, true =>
        let items ← flatItems fuel
        closeAnchor anchor serial (.sequence short items)
      | .scalar text plain, _, _ =>
        advance
        closeAnchor anchor serial (.scalar short plain text)
      | .flowSequenceStart, _, _ =>
        advance
        let items ← flowItems fuel true
        closeAnchor anchor serial (.sequence short items)
      | .flowMappingStart, _, _ =>
        advance
        let entries ← flowEntries fuel true
        closeAnchor anchor serial (.mapping short entries)
      | .sequenceStart, true, _ =>
        advance
        let items ← blockItems fuel
        closeAnchor anchor serial (.sequence short items)
      | .mappingStart, true, _ =>
        advance
        let entries ← blockEntries fuel
        closeAnchor anchor serial (.mapping short entries)
      | _, _, _ =>
        if anchor.isSome || tag.isSome then closeAnchor anchor serial (.scalar short true "")
        else failure

def blockItems : Nat → NodeReader (List Node)
  | 0 => failure
  | fuel + 1 => do
    match ← next with
    | .entry =>
      let item ← match ← peek with
        | .entry => pure nothing
        | .blockEnd => pure nothing
        | _ => node fuel true false
      let rest ← blockItems fuel
      return item :: rest
    | .blockEnd => return []
    | _ => failure

def flatItems : Nat → NodeReader (List Node)
  | 0 => failure
  | fuel + 1 => do
    match ← peek with
    | .entry =>
      advance
      let item ← match ← peek with
        | .entry => pure nothing
        | .key => pure nothing
        | .value => pure nothing
        | .blockEnd => pure nothing
        | _ => node fuel true false
      let rest ← flatItems fuel
      return item :: rest
    | _ => return []

def blockPart : Nat → NodeReader Node
  | 0 => failure
  | fuel + 1 => do
    match ← peek with
    | .key => return nothing
    | .value => return nothing
    | .blockEnd => return nothing
    | _ => node fuel true true

def blockEntries : Nat → NodeReader (List (Node × Node))
  | 0 => failure
  | fuel + 1 => do
    match ← next with
    | .key =>
      let key ← blockPart fuel
      let value ← match ← peek with
        | .value =>
          advance
          blockPart fuel
        | _ => pure nothing
      let rest ← blockEntries fuel
      return (key, value) :: rest
    | .blockEnd => return []
    | _ => failure

def flowItems : Nat → Bool → NodeReader (List Node)
  | 0, _ => failure
  | fuel + 1, first => do
    match ← peek with
    | .flowSequenceEnd =>
      advance
      return []
    | t =>
      if !first then
        if t = .flowEntry then advance else failure
      match ← peek with
      | .flowSequenceEnd =>
        advance
        return []
      | .key =>
        advance
        let entry ← flowPair fuel
        let rest ← flowItems fuel false
        return .mapping none [entry] :: rest
      | _ =>
        let item ← node fuel false false
        let rest ← flowItems fuel false
        return item :: rest

def flowPair : Nat → NodeReader (Node × Node)
  | 0 => failure
  | fuel + 1 => do
    let t ← peek
    let key ←
      if t = .value ∨ t = .flowEntry ∨ t = .flowSequenceEnd then do
        advance
        pure nothing
      else node fuel false false
    match ← peek with
    | .value =>
      advance
      match ← peek with
      | .flowEntry => return (key, nothing)
      | .flowSequenceEnd => return (key, nothing)
      | _ =>
        let value ← node fuel false false
        return (key, value)
    | _ => return (key, nothing)

def flowEntries : Nat → Bool → NodeReader (List (Node × Node))
  | 0, _ => failure
  | fuel + 1, first => do
    match ← peek with
    | .flowMappingEnd =>
      advance
      return []
    | t =>
      if !first then
        if t = .flowEntry then advance else failure
      match ← peek with
      | .flowMappingEnd =>
        advance
        return []
      | .key =>
        advance
        let key ← flowPart fuel
        let value ← match ← peek with
          | .value =>
            advance
            match ← peek with
            | .flowEntry => pure nothing
            | .flowMappingEnd => pure nothing
            | _ => node fuel false false
          | _ => pure nothing
        let rest ← flowEntries fuel false
        return (key, value) :: rest
      | _ =>
        let key ← node fuel false false
        let rest ← flowEntries fuel false
        return (key, nothing) :: rest

def flowPart : Nat → NodeReader Node
  | 0 => failure
  | fuel + 1 => do
    match ← peek with
    | .value => return nothing
    | .flowEntry => return nothing
    | .flowMappingEnd => return nothing
    | _ => node fuel false false

end

def standardHandles : List (String × String) := [("!", "!"), ("!!", standardTags)]

def directives : Nat → Bool → List (String × String) → NodeReader Unit
  | 0, _, _ => failure
  | fuel + 1, versioned, handles => do
    match ← next with
    | .directive (.version major minor) =>
      if versioned ∨ major ≠ 1 ∨ minor ≠ 1 then failure
      else directives fuel true handles
    | .directive (.tag handle expansion) =>
      if (handles.lookup handle).isSome then failure
      else directives fuel versioned ((handle, expansion) :: handles)
    | .documentStart => modify fun r => { r with handles := handles ++ standardHandles }
    | _ => failure

def content (fuel : Nat) : NodeReader Node := do
  match ← peek with
  | .directive _ => return nothing
  | .documentStart => return nothing
  | .documentEnd => return nothing
  | .streamEnd => return nothing
  | _ => node fuel true false

def document (fuel : Nat) : NodeReader (Option Node) := do
  match ← peek with
  | .streamEnd => return none
  | .directive _ =>
    directives fuel false []
    some <$> content fuel
  | .documentStart =>
    directives fuel false []
    some <$> content fuel
  | _ => some <$> node fuel true false

end NodeReader

/-- The first document of a text: a fault, no document at all, or its node. The two tokens after the
document must be readable. -/
def readDocument (text : List Char) : Option (Option Node) :=
  let text := if text.head? = some '\uFEFF' then text.drop 1 else text
  if !text.all isReadable then none
  else
    let scanned := scan text
    let fuel := 3 * scanned.tokens.length + 10
    match (NodeReader.document fuel).run ⟨scanned.tokens, [], NodeReader.standardHandles⟩ with
    | none => none
    | some (node, r) =>
      if r.tokens.isEmpty || (!scanned.complete && r.tokens.length < 3) then none else some node

end DocSite.Yaml
