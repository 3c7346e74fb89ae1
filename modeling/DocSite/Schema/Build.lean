import DocSite.Schema.Review
import DocSite.Site.Sidebar

namespace DocSite.Schema

def siteKeys : List String := ["title", "description", "lang", "head", "themeConfig"]

def themeKeys : List String :=
  ["logo", "nav", "sidebar", "socialLinks", "search", "footer", "lastUpdated"]

def headKeys : List String := ["tagName", "attributes"]

def navKeys : List String := ["text", "link", "items"]

def groupKeys : List String := ["text", "link", "collapsed", "items"]

def itemKeys : List String := ["text", "link"]

def socialKeys : List String := ["icon", "link"]

def searchKeys : List String := ["provider", "options"]

def footerKeys : List String := ["message", "copyright"]

def lastUpdatedKeys : List String := ["text", "formatOptions"]

def formatKeys : List String := ["dateStyle", "timeStyle"]

def assetAttributes : List String := ["href", "src"]

def normalizeAssets (attributes : TextMap) : TextMap :=
  attributes.mapValues fun key value =>
    if assetAttributes.contains key && value != "" then Link.normalize value else value

def headTagParts (path : String) (name attributes : Option Value) : Review (Option HeadTag) :=
  match nonBlank? name with
  | none => do
    Review.mismatch (fieldPath path "tagName") "non-empty string"
    return none
  | some name =>
    match attributes.filter fun v => !v.isNull with
    | none => return some ⟨Text.trim name, none⟩
    | some v => do
      let attributes ← textMap (fieldPath path "attributes") v
      return attributes.map fun a => ⟨Text.trim name, some (normalizeAssets a)⟩

def headTag (path : String) (v : Value) : Review (Option HeadTag) :=
  match v.fields?, v.items? with
  | some fields, _ => do
    unknownKeys path fields headKeys
    headTagParts path (fields.get? "tagName") (fields.get? "attributes")
  | none, some [name] => headTagParts path (some name) none
  | none, some [name, attributes] => headTagParts path (some name) (some attributes)
  | none, _ => do
    Review.mismatch path "\x7btagName, attributes\x7d or [tagName, attributes]"
    return none

def entryShape : String := "\x7btext, link\x7d or \x7btext, items\x7d"

def sidebarItemShape : String := "\x7btext, link\x7d"

/-- Warns when a label was used before in the same list, and names the first use. -/
def labelUse (path : String) (i : Nat) (uses : List (String × Nat)) (label : String) :
    Review Unit :=
  match uses.lookup label with
  | some first =>
    Review.warn (itemPath path i)
      ("nav label " ++ Text.quote label ++ " already used by " ++ itemPath path first)
  | none => return ()

def entryLink (path : String) (v : Value) : Review (Option String) :=
  match nonBlank? (some v) with
  | some s => return some (Link.normalize s)
  | none => do
    Review.mismatch (fieldPath path "link") "non-empty string"
    return none

mutual

def nav (path : String) : Value → Review (Option (List NavItem))
  | .sequence _ items => do
    let entries ← navFrom path 0 [] items
    return some entries
  | _ => do
    Review.mismatch path "sequence"
    return none

def navFrom (path : String) : Nat → List (String × Nat) → List Value → Review (List NavItem)
  | _, _, [] => return []
  | i, uses, v :: r => do
    match ← navEntry (itemPath path i) v with
    | none => navFrom path (i + 1) uses r
    | some item =>
      labelUse path i uses item.text
      let rest ← navFrom path (i + 1) (uses ++ [(item.text, i)]) r
      return item :: rest

/-- A navigation entry: a label with either a link or entries below it. -/
def navEntry (path : String) : Value → Review (Option NavItem)
  | .mapping _ entries =>
    match Value.textKeyed? entries with
    | none => do
      Review.mismatch path entryShape
      return none
    | some fields => do
      unknownKeys path fields navKeys
      match ← label path fields with
      | none => return none
      | some text =>
        match fields.given? "link", (fields.given? "items").isSome with
        | some link, false =>
          let link ← entryLink path link
          return link.map fun link => ⟨text, link, []⟩
        | none, true =>
          let path := fieldPath path "items"
          let below := navBelow path entries
          match ← below with
          | some (item :: rest) =>
            return if below.findings.isEmpty then some ⟨text, "", item :: rest⟩ else none
          | _ =>
            if below.findings.isEmpty then
              Review.mismatch path ("non-empty sequence of " ++ entryShape)
            return none
        | _, _ =>
          Review.mismatch path entryShape
          return none
  | _ => do
    Review.mismatch path entryShape
    return none

def navBelow (path : String) : List (Scalar × Value) → Review (Option (List NavItem))
  | [] => return none
  | (key, v) :: r => if key = .text "items" then nav path v else navBelow path r

end

def sidebarItem (path : String) (v : Value) : Review (Option SidebarItem) :=
  match v.fields? with
  | none => do
    Review.mismatch path sidebarItemShape
    return none
  | some fields => do
    unknownKeys path fields itemKeys
    match ← label path fields with
    | none => return none
    | some text =>
      match nonBlank? (fields.get? "link") with
      | some link => return some ⟨text, Link.normalize link⟩
      | none =>
        Review.mismatch path sidebarItemShape
        return none

/-- Whether a group starts collapsed; a link entry takes no such mark. -/
def collapsedMark (path : String) (isLink : Bool) (v : Option Value) : Review (Option Bool) :=
  match v with
  | none => return none
  | some v =>
    match v.bool? with
    | none => do
      Review.mismatch path "boolean"
      return none
    | some b =>
      if isLink then do
        Review.warn path "collapsed has no effect on a link entry"
        return none
      else return some b

def groupItems (path : String) (v : Value) : Review (Option (List SidebarItem)) :=
  match v.items? with
  | none => do
    Review.mismatch path "sequence"
    return none
  | some [] => do
    Review.mismatch path ("non-empty sequence of " ++ sidebarItemShape)
    return none
  | some items => do
    let members ← collectFrom path sidebarItem 0 items
    return some members

def sidebarGroup (path : String) (v : Value) : Review (Option SidebarGroup) :=
  match v.fields? with
  | none => do
    Review.mismatch path entryShape
    return none
  | some fields => do
    unknownKeys path fields groupKeys
    match ← label path fields with
    | none => return none
    | some text =>
      match fields.given? "link", fields.given? "items" with
      | some link, none =>
        let collapsed ← collapsedMark (fieldPath path "collapsed") true (fields.given? "collapsed")
        let link ← entryLink path link
        return link.map fun link => ⟨text, link, collapsed, []⟩
      | none, some items =>
        let collapsed ← collapsedMark (fieldPath path "collapsed") false (fields.given? "collapsed")
        let items ← groupItems (fieldPath path "items") items
        return items.map fun items => ⟨text, "", collapsed, items⟩
      | _, _ =>
        Review.mismatch path entryShape
        return none

def socialTarget (path : String) (v : Option Value) : Review (Option String) :=
  match v.bind Value.text? with
  | none => do
    Review.mismatch path "string"
    return none
  | some link =>
    if Link.isAbsoluteUrl link then return some link
    else do
      Review.report (.invalidUrl path link)
      return none

def socialLink (path : String) (v : Value) : Review (Option SocialLink) :=
  match v.fields? with
  | none => do
    Review.mismatch path "\x7bicon, link\x7d"
    return none
  | some fields => do
    unknownKeys path fields socialKeys
    let icon ← oneOf (fieldPath path "icon") knownIcons (fields.get? "icon")
    let link ← socialTarget (fieldPath path "link") (fields.get? "link")
    return match icon, link with
      | some icon, some link => some ⟨icon, link⟩
      | _, _ => none

/-- The options of a search provider; one outside the site needs some. -/
def searchOptions (path provider : String) (v : Option Value) : Review (Option Search) :=
  match v with
  | none => finish .empty
  | some v => do
    match ← textMap path v with
    | none => return none
    | some options => finish options
where
  finish (options : TextMap) : Review (Option Search) :=
    if provider = externalProvider && options.isEmpty then do
      Review.mismatch path "non-empty mapping of provider options"
      return none
    else return some ⟨provider, options⟩

def search (path : String) (v : Value) : Review (Option Search) :=
  match v.fields? with
  | none => do
    Review.mismatch path "\x7bprovider, options\x7d"
    return none
  | some fields => do
    unknownKeys path fields searchKeys
    match ← oneOf (fieldPath path "provider") knownProviders (fields.get? "provider") with
    | none => return none
    | some provider => searchOptions (fieldPath path "options") provider (fields.given? "options")

def footer (path : String) (v : Value) : Review (Option Footer) :=
  match v.fields? with
  | none => do
    Review.mismatch path "\x7bmessage, copyright\x7d"
    return none
  | some fields => do
    unknownKeys path fields footerKeys
    let message ← optionalText path fields "message"
    let copyright ← optionalText path fields "copyright"
    return some ⟨message.getD "", copyright.getD ""⟩

def style (path : String) (fields : Fields) (key standard : String) : Review String :=
  match fields.given? key with
  | none => return standard
  | some v => do
    let chosen ← oneOf (fieldPath path key) knownStyles (some v)
    return chosen.getD ""

def stampStyles (path : String) (stamp : LastUpdated) (v : Option Value) :
    Review (Option LastUpdated) :=
  match v with
  | none => return some stamp
  | some v =>
    match v.fields? with
    | none => do
      Review.mismatch path "\x7bdateStyle, timeStyle\x7d"
      return none
    | some fields => do
      unknownKeys path fields formatKeys
      let dateStyle ← style path fields "dateStyle" stamp.dateStyle
      let timeStyle ← style path fields "timeStyle" stamp.timeStyle
      return some { stamp with dateStyle, timeStyle }

def textOr (standard : String) (s : Option String) : String :=
  match s with
  | none => standard
  | some s => if s = "" then standard else s

def lastUpdated (path : String) (v : Value) : Review (Option LastUpdated) :=
  match v.bool?, v.fields? with
  | some true, _ => return some .default
  | some false, _ => return none
  | none, none => do
    Review.mismatch path "boolean or \x7btext, formatOptions\x7d"
    return none
  | none, some fields => do
    unknownKeys path fields lastUpdatedKeys
    let text ← optionalText path fields "text"
    let stamp := { LastUpdated.default with text := textOr LastUpdated.default.text text }
    stampStyles (fieldPath path "formatOptions") stamp (fields.given? "formatOptions")

def logo (path : String) (fields : Fields) : Review String := do
  let link ← optionalText path fields "logo"
  return match link with
    | none => ""
    | some s => if s = "" then "" else Link.normalize s

def theme (path : String) (fields : Fields) : Review Theme := do
  unknownKeys path fields themeKeys
  let logo ← logo path fields
  let nav ← optionalField path fields "nav" nav
  let sidebar ← optionalField path fields "sidebar" fun p v => sequenceOf p sidebarGroup v
  let socialLinks ← optionalField path fields "socialLinks" fun p v => sequenceOf p socialLink v
  let search ← optionalField path fields "search" search
  let footer ← optionalField path fields "footer" footer
  let lastUpdated ← optionalField path fields "lastUpdated" lastUpdated
  return { logo, nav, sidebar, socialLinks, search, footer, lastUpdated }

def themeSection (path : String) (v : Value) : Review (Option Theme) :=
  match v.fields? with
  | none => do
    Review.mismatch path "mapping"
    return none
  | some fields => do
    let theme ← theme path fields
    return some theme

def site (fields : Fields) : Review Site := do
  unknownKeys "" fields siteKeys
  let title ← requiredText fields "title"
  let description ← requiredText fields "description"
  let lang ← optionalText "" fields "lang"
  let head ← optionalField "" fields "head" fun p v => sequenceOf p headTag v
  let theme ← optionalField "" fields "themeConfig" themeSection
  return {
    title, description, head
    lang := textOr defaultLang lang
    theme := theme.getD .empty }

end DocSite.Schema

namespace DocSite

structure Report where
  site : Site
  warnings : List Warning
deriving Repr

/-- Reads a declaration as a configuration, or reports everything that is wrong with it. -/
def build (declaration : Fields) : Except Fault Report :=
  let review := Schema.site declaration
  let schema := review.findings.map Fault.finding
  match schema ++ (sidebarFault? (review.value.theme.sidebar.getD [])).toList with
  | [] => .ok ⟨review.value, review.warnings⟩
  | faults => .error (.join faults)

end DocSite
