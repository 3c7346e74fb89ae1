import DocSite.Yaml.Node.Value

namespace DocSite.Yaml

structure Record where
  own : List (String × Node)
  merged : List (String × Node)
deriving Repr

def named? : List (Node × Node) → Option (List (String × Node))
  | [] => some []
  | (key, v) :: r => do
    let name ← key.asText?
    let rest ← named? r
    return match name with
      | some name => (name, v) :: rest
      | none => rest

namespace Record

def empty : Record := ⟨[], []⟩

def ofNode? : Node → Option Record
  | .mapping _ entries => ofEntries? entries
  | .alias _ (some (.mapping _ entries)) => ofEntries? entries
  | node => if node.keyScalar? = some .null then some empty else none
where
  ofEntries? (entries : List (Node × Node)) : Option Record := do
    if Node.hasDuplicates entries then none
    let own ← named? (entries.filter fun e => !e.1.isMergeKey)
    let merged ← named? (← Node.merged? entries)
    return ⟨own, merged⟩

/-- Reads a field. What a mapping merges counts only where it has nothing of its own, and the first
of it then. -/
def field (record : Record) (read : Node → Option (Option α)) (name : String) :
    Option (Option α) :=
  match record.own.filter (·.1 == name) with
  | [] =>
    match record.merged.lookup name with
    | some node => read node
    | none => some none
  | [(_, node)] => read node
  | _ => none

end Record

namespace Node

def asBool? (node : Node) : Option (Option Bool) :=
  node.keyScalar?.bind fun
    | .null => some none
    | .bool b => some (some b)
    | .text s =>
      if ["y", "Y", "yes", "on"].contains s then some (some true)
      else if ["n", "N", "no", "off"].contains s then some (some false)
      else none
    | _ => none

def asInt? (node : Node) : Option (Option Int) :=
  node.keyScalar?.bind fun
    | .null => some none
    | .integer .unsigned i => if i < Int.pow 2 63 then some (some i) else none
    | .integer _ i => some (some i)
    | .float x => if x.withinInt64 then some (some x.toInt64) else none
    | _ => none

def asFloat? (node : Node) : Option (Option Binary64) :=
  node.keyScalar?.bind fun
    | .null => some none
    | .integer _ i => some (some (.ofInt i))
    | .float x => some (some x)
    | _ => none

end Node

end DocSite.Yaml
