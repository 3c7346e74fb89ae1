import DocSite.Link.Reference
import DocSite.Path
import DocSite.Text.Blank

/-!
The normal form of links. A link that leaves the site, by a scheme or by naming a host after two
slashes, is only trimmed. Every other link is a path on the site: it gets one leading slash, loses
its dot segments, empty segments and trailing slash, and keeps its query and fragment untouched.
-/

namespace DocSite.Link

/-- Whether a text starts with a scheme: a letter, then letters, digits, `+`, `-` or `.`, then a
colon. -/
def hasScheme : List Char → Bool
  | [] => false
  | c :: r => isAsciiLetter c && (r.dropWhile isSchemeChar).head? == some ':'

def isProtocolRelative (s : List Char) : Bool :=
  match s with
  | '/' :: '/' :: _ =>
    match Reference.parse? s with
    | some reference => !reference.host.isEmpty
    | none => false
  | _ => false

def leavesSite (s : List Char) : Bool :=
  hasScheme s || isProtocolRelative s

def isExternal (link : String) : Bool :=
  leavesSite (Text.trimChars link.toList)

def isSuffixStart (c : Char) : Bool := c == '?' || c == '#'

def normalizeChars (link : List Char) : List Char :=
  let link := Text.trimChars link
  if leavesSite link then link
  else
    let path := link.takeWhile fun c => !isSuffixStart c
    let suffix := link.dropWhile fun c => !isSuffixStart c
    Path.cleanAbsolute path ++ suffix

def normalize (link : String) : String :=
  String.ofList (normalizeChars link.toList)

def isAbsoluteUrl (s : String) : Bool :=
  let chars := s.toList
  !chars.isEmpty && Text.trimChars chars == chars &&
    match Reference.parse? chars with
    | some reference => !reference.scheme.isEmpty && !reference.host.isEmpty
    | none => false

end DocSite.Link
