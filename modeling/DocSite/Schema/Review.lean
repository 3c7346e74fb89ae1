import DocSite.Finding
import DocSite.Link.Normal
import DocSite.Site.Basic
import DocSite.Value

/-!
Reading a declaration never stops at the first mistake: every step yields a value together with
what is wrong and what is merely odd. A review is such a result; reviews run one after the other
and their reports add up in order.
-/

namespace DocSite

/-- Something odd in a declaration that does not make it invalid. -/
structure Warning where
  path : String
  message : String
deriving DecidableEq, Repr

def Warning.text (w : Warning) : String := w.path ++ ": " ++ w.message

/-- A value with the findings and warnings met on the way to it. -/
structure Review (α : Type) where
  value : α
  findings : List Finding
  warnings : List Warning
deriving Repr

namespace Review

protected def pure (a : α) : Review α := ⟨a, [], []⟩

protected def bind (r : Review α) (f : α → Review β) : Review β :=
  let s := f r.value
  ⟨s.value, r.findings ++ s.findings, r.warnings ++ s.warnings⟩

instance : Monad Review where
  pure := Review.pure
  bind := Review.bind

def report (f : Finding) : Review Unit := ⟨(), [f], []⟩

def mismatch (path shape : String) : Review Unit := report (.schemaMismatch path shape)

def warn (path message : String) : Review Unit := ⟨(), [], [⟨path, message⟩]⟩

@[simp] theorem value_pure (a : α) : (pure a : Review α).value = a := rfl
@[simp] theorem findings_pure (a : α) : (pure a : Review α).findings = [] := rfl
@[simp] theorem warnings_pure (a : α) : (pure a : Review α).warnings = [] := rfl

@[simp] theorem value_bind (r : Review α) (f : α → Review β) :
    (r >>= f).value = (f r.value).value := rfl

@[simp] theorem findings_bind (r : Review α) (f : α → Review β) :
    (r >>= f).findings = r.findings ++ (f r.value).findings := rfl

@[simp] theorem warnings_bind (r : Review α) (f : α → Review β) :
    (r >>= f).warnings = r.warnings ++ (f r.value).warnings := rfl

end Review

namespace Schema

def fieldPath (path key : String) : String :=
  if path = "" then key else path ++ "." ++ key

def itemPath (path : String) (i : Nat) : String :=
  path ++ "[" ++ toString i ++ "]"

def unknownKeys (path : String) (fields : Fields) (known : List String) : Review Unit :=
  ⟨(), [], (fields.sortedKeys.filter fun key => !known.contains key).map fun key =>
    ⟨fieldPath path key, "unknown field ignored"⟩⟩

def requiredText (fields : Fields) (key : String) : Review String :=
  match fields.given? key with
  | none => do
    Review.report (.missingField key)
    return ""
  | some v =>
    match v.text? with
    | none => do
      Review.mismatch key "string"
      return ""
    | some s => do
      let s := Text.trim s
      if s = "" then
        Review.report (.missingField key)
      return s

def optionalText (path : String) (fields : Fields) (key : String) : Review (Option String) :=
  match fields.given? key with
  | none => return none
  | some v =>
    match v.text? with
    | none => do
      Review.mismatch (fieldPath path key) "string"
      return none
    | some s => return some (Text.trim s)

def nonBlank? (v : Option Value) : Option String :=
  match v.bind Value.text? with
  | some s => if Text.trim s = "" then none else some s
  | none => none

def label (path : String) (fields : Fields) : Review (Option String) :=
  match nonBlank? (fields.get? "text") with
  | some s => return some (Text.trim s)
  | none => do
    Review.mismatch (fieldPath path "text") "non-empty string"
    return none

def scalarEntries (path : String) (fields : Fields) :
    List String → Review (List (String × String))
  | [] => return []
  | key :: r =>
    match (fields.get? key).bind Value.scalarText? with
    | some s => do
      let rest ← scalarEntries path fields r
      return (key, s) :: rest
    | none => do
      Review.mismatch (fieldPath path key) "string"
      scalarEntries path fields r

def textMap (path : String) (v : Value) : Review (Option TextMap) :=
  match v.fields? with
  | none => do
    Review.mismatch path "mapping of string values"
    return none
  | some fields =>
    let entries := scalarEntries path fields fields.sortedKeys
    ⟨if entries.findings.isEmpty then some (.ofList entries.value) else none,
      entries.findings, entries.warnings⟩

def oneOf (path : String) (known : List String) (v : Option Value) : Review (Option String) :=
  match v.bind Value.text? with
  | some s =>
    if known.contains s then return some s
    else do
      Review.mismatch path ("one of " ++ String.intercalate ", " known)
      return none
  | none => do
    Review.mismatch path ("one of " ++ String.intercalate ", " known)
    return none

def collectFrom (path : String) (read : String → Value → Review (Option α)) :
    Nat → List Value → Review (List α)
  | _, [] => return []
  | i, v :: r => do
    let member ← read (itemPath path i) v
    let rest ← collectFrom path read (i + 1) r
    return member.toList ++ rest

def sequenceOf (path : String) (read : String → Value → Review (Option α)) (v : Value) :
    Review (Option (List α)) :=
  match v.items? with
  | none => do
    Review.mismatch path "sequence"
    return none
  | some items => do
    let members ← collectFrom path read 0 items
    return some members

def optionalField (path : String) (fields : Fields) (key : String)
    (read : String → Value → Review (Option α)) : Review (Option α) :=
  match fields.given? key with
  | none => return none
  | some v => read (fieldPath path key) v

end Schema

end DocSite
