import DocSite.Value

/-!
Tables while a TOML document is read. Besides its fields a table knows how it came to be: declared
under a header of its own, or only as a part of a longer key. What may still be added to it depends
on that.
-/

namespace DocSite.Toml

/-- What stands under a key: a value, a table, or a sequence of tables of which the last is still
open. A table is `closed` once it was declared, and `dotted` while the keys that made it are still
being read. -/
inductive Slot
  | value (v : Value)
  | table (closed dotted : Bool) (slots : List (String × Slot))
  | tables (before : List Value) (last : List (String × Slot))
deriving Repr

abbrev Slots := List (String × Slot)

mutual

def Slot.toValue : Slot → Value
  | .value v => v
  | .table _ _ slots => .mapping .plain (Slots.entries slots)
  | .tables before last => .list (before ++ [.mapping .plain (Slots.entries last)])

def Slots.entries : List (String × Slot) → List (Scalar × Value)
  | [] => []
  | (key, slot) :: r => (.text key, slot.toValue) :: Slots.entries r

end

mutual

def Slot.seal : Slot → Slot
  | .value v => .value v
  | .table closed dotted slots => .table (closed || dotted) false (Slots.seal slots)
  | .tables before last => .tables before (Slots.seal last)

def Slots.seal : List (String × Slot) → List (String × Slot)
  | [] => []
  | (key, slot) :: r => (key, slot.seal) :: Slots.seal r

end

namespace Slots

def put (slots : Slots) (key : String) (slot : Slot) : Slots :=
  match slots with
  | [] => [(key, slot)]
  | (k, s) :: r => if k = key then (key, slot) :: r else (k, s) :: put r key slot

/-- Puts a value under a path of keys. The last key must be new; the others lead through tables that
are not closed. -/
def assign : List String → Value → Slots → Option Slots
  | [], _, _ => none
  | [key], v, slots =>
    match slots.lookup key with
    | none => some (put slots key (.value v))
    | some _ => none
  | key :: path, v, slots =>
    match slots.lookup key with
    | none => (assign path v []).map fun below => put slots key (.table false true below)
    | some (.table false dotted below) =>
      (assign path v below).map fun below => put slots key (.table false dotted below)
    | some _ => none

def declare : List String → Slots → Option Slots
  | [], _ => none
  | [key], slots =>
    match slots.lookup key with
    | none => some (put slots key (.table true false []))
    | some (.table false dotted below) => some (put slots key (.table true dotted below))
    | some _ => none
  | key :: path, slots =>
    match slots.lookup key with
    | none => (declare path []).map fun below => put slots key (.table false false below)
    | some (.table closed dotted below) =>
      (declare path below).map fun below => put slots key (.table closed dotted below)
    | some (.tables before last) =>
      (declare path last).map fun last => put slots key (.tables before last)
    | some (.value _) => none

def append : List String → Slots → Option Slots
  | [], _ => none
  | [key], slots =>
    match slots.lookup key with
    | none => some (put slots key (.tables [] []))
    | some (.tables before last) =>
      some (put slots key (.tables (before ++ [.mapping .plain (entries last)]) []))
    | some _ => none
  | key :: path, slots =>
    match slots.lookup key with
    | none => (append path []).map fun below => put slots key (.table false false below)
    | some (.table closed dotted below) =>
      (append path below).map fun below => put slots key (.table closed dotted below)
    | some (.tables before last) =>
      (append path last).map fun last => put slots key (.tables before last)
    | some (.value _) => none

def within (f : Slots → Option Slots) : List String → Slots → Option Slots
  | [], slots => f slots
  | key :: path, slots =>
    match slots.lookup key with
    | some (.table closed dotted below) =>
      (within f path below).map fun below => put slots key (.table closed dotted below)
    | some (.tables before last) =>
      (within f path last).map fun last => put slots key (.tables before last)
    | _ => none

end Slots

end DocSite.Toml
