import DocSite.Yaml.Node.Basic

namespace DocSite.Yaml

namespace Node

def withMerged (entries : List (Node × Node)) (merged : Option (List (Node × Node))) :
    Option (List (Node × Node)) :=
  if hasDuplicates entries then none
  else merged.map fun merged => entries.filter (fun e => !e.1.isMergeKey) ++ merged

mutual

def allEntries? : Node → Option (List (Node × Node))
  | .mapping _ entries => withMerged entries (merged? entries)
  | .alias _ (some (.mapping _ entries)) => withMerged entries (merged? entries)
  | _ => none

def merged? : List (Node × Node) → Option (List (Node × Node))
  | [] => some []
  | (key, v) :: r => if key.isMergeKey then mergeSource? v else merged? r

def mergeSource? : Node → Option (List (Node × Node))
  | .mapping _ entries => withMerged entries (merged? entries)
  | .alias _ (some (.mapping _ entries)) => withMerged entries (merged? entries)
  | .sequence _ items => mergeItems? items
  | _ => none

def mergeItems? : List Node → Option (List (Node × Node))
  | [] => some []
  | n :: r => do
    let entries ← allEntries? n
    let rest ← mergeItems? r
    return entries ++ rest

end

def keyScalar? : Node → Option Scalar
  | .scalar tag plain text => scalarOf? tag plain text
  | .alias _ (some target) => target.keyScalar?
  | _ => none

def asText? : Node → Option (Option String)
  | .scalar tag plain text =>
    match scalarOf? tag plain text with
    | none => none
    | some .null => some none
    | some (.text s) => some (some s)
    | some _ => some (some text)
  | .alias _ (some target) => target.asText?
  | _ => none

end Node

inductive KeyKind
  | texts
  | scalars
deriving DecidableEq, Repr

/-- Reads a key; the inner `none` is a key that does not count. -/
def KeyKind.read (kind : KeyKind) (key : Node) : Option (Option Scalar) :=
  match kind with
  | .texts => key.asText?.map fun s => s.map .text
  | .scalars => key.keyScalar?.map some

def setEntry (key : Scalar) (v : Value) : List (Scalar × Value) → List (Scalar × Value)
  | [] => [(key, v)]
  | e :: r => if e.1 = key then (key, v) :: r else e :: setEntry key v r

/-- Reads entries one after the other into a mapping, those with a key among `seen` left out. With
`track`, every key that is read counts as seen from then on. -/
def collectEntries (kind : KeyKind) (read : Node → Option Value) (track : Bool) :
    List Scalar → List (Scalar × Value) → List (Node × Node) → Option (List (Scalar × Value))
  | _, out, [] => some out
  | seen, out, (key, v) :: r =>
    match kind.read key with
    | none => none
    | some none => collectEntries kind read track seen out r
    | some (some k) =>
      if track && seen.contains k then collectEntries kind read track seen out r
      else match read v with
        | none => none
        | some v => collectEntries kind read track (k :: seen) (setEntry k v out) r

def mappingEntries (kind : KeyKind) (read : Node → Option Value) (entries : List (Node × Node)) :
    Option (List (Scalar × Value)) := do
  if Node.hasDuplicates entries then none
  let own ← collectEntries kind read false [] [] (entries.filter fun e => !e.1.isMergeKey)
  let merged ← Node.merged? entries
  collectEntries kind read true (entries.filterMap fun e => e.1.keyScalar?) own merged

def isTextMapping (entries : List (Node × Node)) : Bool :=
  entries.all fun e => e.1.shortTag == "!!str" || e.1.shortTag == "!!merge"

def valueWith : Nat → Node → Option Value
  | 0, _ => none
  | _ + 1, .scalar tag plain text => (scalarOf? tag plain text).map .scalar
  | fuel + 1, .sequence _ items => (items.mapM (valueWith fuel)).map .list
  | fuel + 1, .mapping _ entries =>
    if isTextMapping entries then
      (mappingEntries .texts (valueWith fuel) entries).map (.mapping .plain)
    else (mappingEntries .scalars (valueWith fuel) entries).map (.mapping .general)
  | fuel + 1, .alias _ (some target) => valueWith fuel target
  | _ + 1, .alias _ none => none

def Node.value? (node : Node) : Option Value := valueWith (node.depth + 1) node

def Node.declaration? : Node → Option Fields
  | .mapping tag entries =>
    let depth := (Node.mapping tag entries).depth
    (mappingEntries .texts (valueWith depth) entries).bind Value.textKeyed?
  | .scalar tag plain text =>
    match scalarOf? tag plain text with
    | some .null => some []
    | _ => none
  | _ => none

end DocSite.Yaml
