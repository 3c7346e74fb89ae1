import DocSite.Json.Reader

namespace DocSite.Http

inductive BodyFault
  | tooLarge
  | malformed
deriving DecidableEq, Repr

/-- The characters that fit into a number of bytes. One that fits only in part is replaced. -/
def clip : Nat → List Char → List Char
  | _, [] => []
  | left, c :: r =>
    if left = 0 then []
    else if c.utf8Size ≤ left then c :: clip (left - c.utf8Size) r
    else ['\uFFFD']

def readDocument (limit : Nat) (body : String) : Except BodyFault Json :=
  match Json.follow .start (clip limit body.toList) with
  | .complete document => .ok document
  | .broken => .error .malformed
  | .unfinished state =>
    if limit < body.utf8ByteSize then .error .tooLarge
    else match state.finish? with
      | some document => .ok document
      | none => .error .malformed

def readDeclaration (limit : Nat) (body : String) : Except BodyFault Fields := do
  let document ← readDocument limit body
  match document.toDeclaration? with
  | some fields => .ok fields
  | none => .error .malformed

end DocSite.Http
