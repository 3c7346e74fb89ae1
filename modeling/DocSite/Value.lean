import DocSite.Number.Shortest
import DocSite.Text.Order
import DocSite.Time.Calendar

namespace DocSite

inductive IntWidth
  | native
  | signed
  | unsigned
  | other
deriving Repr, DecidableEq

/-- A value without parts. `named` is text that carries a type of its own, and `single` a number of
single precision; the schema takes neither for text or number. -/
inductive Scalar
  | null
  | bool (b : Bool)
  | text (s : String)
  | named (s : String)
  | integer (width : IntWidth) (i : Int)
  | float (x : Binary64)
  | single (x : Binary64)
  | moment (m : Moment)
deriving Repr, DecidableEq

inductive SequenceKind
  | plain
  | texts
  | mappings
  | sequences
  | bytes
  | pair
deriving Repr, DecidableEq

inductive MappingKind
  | plain
  | general
  | texts
deriving Repr, DecidableEq

/-- A decoded value. A mapping lists its entries; the formats give every key once. -/
inductive Value
  | scalar (s : Scalar)
  | sequence (kind : SequenceKind) (items : List Value)
  | mapping (kind : MappingKind) (entries : List (Scalar × Value))
deriving Repr

abbrev Fields := List (String × Value)

namespace Value

abbrev null : Value := .scalar .null

abbrev text (s : String) : Value := .scalar (.text s)

abbrev bool (b : Bool) : Value := .scalar (.bool b)

abbrev list (items : List Value) : Value := .sequence .plain items

def record (fields : Fields) : Value :=
  .mapping .plain (fields.map fun f => (.text f.1, f.2))

def isNull : Value → Bool
  | .scalar .null => true
  | _ => false

def text? : Value → Option String
  | .scalar (.text s) => some s
  | _ => none

def bool? : Value → Option Bool
  | .scalar (.bool b) => some b
  | _ => none

def textKeyed? : List (Scalar × Value) → Option Fields
  | [] => some []
  | (.text k, v) :: r => (textKeyed? r).map ((k, v) :: ·)
  | _ :: _ => none

def fields? : Value → Option Fields
  | .mapping _ entries => textKeyed? entries
  | _ => none

def items? : Value → Option (List Value)
  | .sequence _ items => some items
  | _ => none

/-- The text of a scalar that an attribute or an option may have: text itself, a truth value, or a
number of a width that the formats produce. -/
def scalarText? : Value → Option String
  | .scalar (.text s) => some s
  | .scalar (.bool b) => some (if b then "true" else "false")
  | .scalar (.integer .other _) => none
  | .scalar (.integer _ i) => some (toString i)
  | .scalar (.float x) => some x.text
  | _ => none

@[simp]
theorem fields?_record (fields : Fields) : (record fields).fields? = some fields := by
  induction fields with
  | nil => rfl
  | cons f r ih => simp_all [record, fields?, textKeyed?]

@[simp]
theorem items?_sequence (kind : SequenceKind) (items : List Value) :
    (sequence kind items).items? = some items := rfl

end Value

namespace Fields

def get? (fields : Fields) (key : String) : Option Value :=
  fields.lookup key

/-- The value under a key unless it is null: a null field counts as absent. -/
def given? (fields : Fields) (key : String) : Option Value :=
  (get? fields key).filter fun v => !v.isNull

def sortedKeys (fields : Fields) : List String :=
  Text.sortTexts (fields.map (·.1))

def set (fields : Fields) (key : String) (v : Value) : Fields :=
  match fields with
  | [] => [(key, v)]
  | (k, w) :: r => if k = key then (key, v) :: r else (k, w) :: set r key v

end Fields

end DocSite
