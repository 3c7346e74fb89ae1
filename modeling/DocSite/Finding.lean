import DocSite.Text.Quoted

namespace DocSite

inductive Finding
  | missingField (field : String)
  | schemaMismatch (path shape : String)
  | duplicateLink (link : String) (groups : List String)
  | invalidUrl (field value : String)
deriving Repr, DecidableEq

namespace Finding

def kind : Finding → String
  | .missingField _ => "missing_field"
  | .schemaMismatch _ _ => "schema_mismatch"
  | .duplicateLink _ _ => "duplicate_link"
  | .invalidUrl _ _ => "invalid_url"

def location : Finding → String
  | .missingField field => field
  | .schemaMismatch path _ => path
  | .duplicateLink link _ => link
  | .invalidUrl field _ => field

def message : Finding → String
  | .missingField field => "missing required field " ++ Text.quote field
  | .schemaMismatch path shape => path ++ ": expected " ++ shape
  | .duplicateLink link groups =>
    "sidebar link " ++ Text.quote link ++ " declared more than once (groups: " ++
      String.intercalate ", " groups ++ ")"
  | .invalidUrl field value =>
    field ++ ": " ++ Text.quote value ++ " is not a valid absolute URL"

end Finding

inductive FileFault
  | notFound
  | notDirectory
  | isDirectory
  | invalidName
  | nameTooLong
deriving Repr, DecidableEq

def FileFault.message : FileFault → String
  | .notFound => "no such file or directory"
  | .notDirectory => "not a directory"
  | .isDirectory => "is a directory"
  | .invalidName => "invalid argument"
  | .nameTooLong => "file name too long"

inductive Fault
  | finding (f : Finding)
  | invalidConfig
  | unsupportedFormat (detail : String)
  | file (step path : String) (cause : FileFault)
  | system (cause : FileFault)
  | unreadable (format detail : String)
  | plain (text : String)
  | wrap (context : String) (inner : Fault)
  | join (members : List Fault)
deriving Repr

namespace Fault

mutual

def message : Fault → String
  | .finding f => f.message
  | .invalidConfig => "invalid site configuration"
  | .unsupportedFormat detail => "unsupported declaration format: " ++ detail
  | .file step path cause => step ++ " " ++ path ++ ": " ++ cause.message
  | .system cause => cause.message
  | .unreadable format detail => "parse " ++ format ++ ": " ++ detail
  | .plain text => text
  | .wrap context inner => context ++ ": " ++ message inner
  | .join members => String.intercalate "\n" (messages members)

def messages : List Fault → List String
  | [] => []
  | f :: r => message f :: messages r

end

mutual

def findings : Fault → List Finding
  | .finding f => [f]
  | .wrap _ inner => findings inner
  | .join members => findingsOf members
  | _ => []

def findingsOf : List Fault → List Finding
  | [] => []
  | f :: r => findings f ++ findingsOf r

end

mutual

def any (p : Fault → Bool) : Fault → Bool
  | .wrap _ inner => any p inner
  | .join members => anyOf p members
  | leaf => p leaf

def anyOf (p : Fault → Bool) : List Fault → Bool
  | [] => false
  | f :: r => any p f || anyOf p r

end

/-- Whether the fault says that a configuration is invalid: by a finding, or in so many words. -/
def isInvalidConfig : Fault → Bool :=
  any fun
    | .finding _ => true
    | .invalidConfig => true
    | _ => false

def isUnsupportedFormat : Fault → Bool :=
  any fun
    | .unsupportedFormat _ => true
    | _ => false

def isNotFound : Fault → Bool :=
  any fun
    | .file _ _ .notFound => true
    | .system .notFound => true
    | _ => false

def joinAll? (members : List (Option Fault)) : Option Fault :=
  match members.filterMap id with
  | [] => none
  | present => some (.join present)

@[simp]
theorem findingsOf_append (a b : List Fault) :
    findingsOf (a ++ b) = findingsOf a ++ findingsOf b := by
  induction a with
  | nil => simp [findingsOf]
  | cons f r ih => simp [findingsOf, ih]

@[simp]
theorem findingsOf_map_finding (l : List Finding) : findingsOf (l.map .finding) = l := by
  induction l with
  | nil => rfl
  | cons f r ih => simp [findingsOf, findings, ih]

end Fault

end DocSite
