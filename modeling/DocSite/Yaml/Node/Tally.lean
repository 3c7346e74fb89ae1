import DocSite.Yaml.Node.Value

/-!
How much of a document is read through aliases. A short document can stand for a very long one when
aliases lie below aliases, so a reader counts the nodes it reads, and gives up when too many of them
are reached through aliases.
-/

namespace DocSite.Yaml

structure Tally where
  all : Nat
  aliased : Nat
deriving Repr, DecidableEq

namespace Tally

/-- The part of the nodes that may lie below aliases: nearly all of them in a document of usual
size, a tenth in a very large one, and something in between on the way. -/
def allowance (all : Nat) : Binary64 :=
  if all ≤ 400000 then .ofRatio false 99 100
  else if 4000000 ≤ all then .ofRatio false 1 10
  else
    (Binary64.ofRatio false 99 100).sub
      ((Binary64.ofRatio false 89 100).mul ((Binary64.ofInt (all - 400000)).div (.ofInt 3600000)))

def isExcessive (t : Tally) : Bool :=
  100 < t.aliased && 1000 < t.all &&
    (allowance t.all).isBelow ((Binary64.ofInt t.aliased).div (.ofInt t.all))

def read (below : Bool) (t : Tally) : Option Tally :=
  let next : Tally := ⟨t.all + 1, if below then t.aliased + 1 else t.aliased⟩
  if next.isExcessive then none else some next

end Tally

/-- What a node is read as: as whatever it is, as a mapping of texts, or as a record, of which only
the known fields are read. -/
inductive Shape
  | any
  | texts
  | record (fields : List (String × Shape))

namespace Shape

def keys (shape : Shape) (entries : List (Node × Node)) : KeyKind :=
  match shape with
  | .any => if isTextMapping entries then .texts else .scalars
  | _ => .texts

def field? : Shape → Scalar → Option Shape
  | .record fields, .text name => fields.lookup name
  | .record _, _ => none
  | _, _ => some .any

end Shape

namespace Node

-- A node that cannot be read may be counted wrongly here: its document is refused in any case.
mutual

/-- Counts a node and what is read below it. The keys of a mapping are read once more before what it
merges, so that those can be told that stay. -/
def count (below : Bool) (shape : Shape) : Node → Tally → Option Tally
  | .scalar _ _ _, t => t.read below
  | .sequence _ items, t => (t.read below).bind (countItems below items)
  | .mapping _ entries, t => do
    let kind := shape.keys entries
    let (_, t) ← countEntries below shape kind false entries ([], ← t.read below)
    if entries.any (·.1.isMergeKey) then
      let t ← countKeys below entries t
      let (_, t) ← countMerged below shape kind entries (entries.filterMap (·.1.keyScalar?), t)
      return t
    else return t
  | .alias _ (some target), t => (t.read below).bind (count true shape target)
  | .alias _ none, t => t.read below

def countItems (below : Bool) : List Node → Tally → Option Tally
  | [], t => some t
  | item :: r, t => (count below .any item t).bind (countItems below r)

def countEntries (below : Bool) (shape : Shape) (kind : KeyKind) (track : Bool) :
    List (Node × Node) → List Scalar × Tally → Option (List Scalar × Tally)
  | [], s => some s
  | (key, v) :: r, (seen, t) =>
    if key.isMergeKey then countEntries below shape kind track r (seen, t)
    else do
      let t ← count below .any key t
      match kind.read key with
      | some (some k) =>
        if track && seen.contains k then countEntries below shape kind track r (seen, t)
        else match shape.field? k with
          | none => countEntries below shape kind track r (k :: seen, t)
          | some inner =>
            let t ← count below inner v t
            countEntries below shape kind track r (k :: seen, t)
      | _ => countEntries below shape kind track r (seen, t)

def countKeys (below : Bool) : List (Node × Node) → Tally → Option Tally
  | [], t => some t
  | (key, _) :: r, t => (count below .any key t).bind (countKeys below r)

def countMerged (below : Bool) (shape : Shape) (kind : KeyKind) :
    List (Node × Node) → List Scalar × Tally → Option (List Scalar × Tally)
  | [], s => some s
  | (key, v) :: r, s =>
    if key.isMergeKey then countSource below shape kind v s else countMerged below shape kind r s

def countSource (below : Bool) (shape : Shape) (kind : KeyKind) :
    Node → List Scalar × Tally → Option (List Scalar × Tally)
  | .mapping _ entries, (seen, t) => do
    let s ← countEntries below shape kind true entries (seen, ← t.read below)
    countMerged below shape kind entries s
  | .alias _ (some target), (seen, t) => do
    countSource true shape kind target (seen, ← t.read below)
  | .sequence _ items, s => countSources below shape kind items s
  | _, s => some s

def countSources (below : Bool) (shape : Shape) (kind : KeyKind) :
    List Node → List Scalar × Tally → Option (List Scalar × Tally)
  | [], s => some s
  | item :: r, s => (countSource below shape kind item s).bind (countSources below shape kind r)

end

def withinAllowance (node : Node) (shape : Shape) : Bool := (node.count false shape ⟨1, 0⟩).isSome

end Node

end DocSite.Yaml
