import DocSite.Site.Basic
import DocSite.Value

namespace DocSite

def unlessEmpty (key text : String) : Fields :=
  if text = "" then [] else [(key, .text text)]

def whenSome (key : String) (v : Option Value) : Fields :=
  match v with
  | none => []
  | some v => [(key, v)]

def listOrNull (write : α → Value) (l : Option (List α)) : Value :=
  match l with
  | none => .null
  | some l => .list (l.map write)

def TextMap.toValue (m : TextMap) : Value :=
  .record (m.entries.map fun e => (e.1, .text e.2))

def HeadTag.toValue (tag : HeadTag) : Value :=
  .record [("tagName", .text tag.tagName),
    ("attributes", (tag.attributes.map TextMap.toValue).getD .null)]

mutual

def NavItem.toValue : NavItem → Value
  | ⟨text, link, items⟩ =>
    .record (("text", .text text) :: unlessEmpty "link" link ++
      if items.isEmpty then [] else [("items", .list (NavItem.toValues items))])

def NavItem.toValues : List NavItem → List Value
  | [] => []
  | item :: r => item.toValue :: NavItem.toValues r

end

def SidebarItem.toValue (item : SidebarItem) : Value :=
  .record [("text", .text item.text), ("link", .text item.link)]

def SidebarGroup.toValue (group : SidebarGroup) : Value :=
  .record (("text", .text group.text) :: unlessEmpty "link" group.link ++
    whenSome "collapsed" (group.collapsed.map .bool) ++
    if group.items.isEmpty then [] else [("items", .list (group.items.map SidebarItem.toValue))])

def SocialLink.toValue (link : SocialLink) : Value :=
  .record [("icon", .text link.icon), ("link", .text link.link)]

def Search.toValue (search : Search) : Value :=
  .record (("provider", .text search.provider) ::
    if search.options.isEmpty then [] else [("options", search.options.toValue)])

def Footer.toValue (footer : Footer) : Value :=
  .record (unlessEmpty "message" footer.message ++ unlessEmpty "copyright" footer.copyright)

def LastUpdated.toValue (stamp : LastUpdated) : Value :=
  .record [("text", .text stamp.text),
    ("formatOptions",
      .record [("dateStyle", .text stamp.dateStyle), ("timeStyle", .text stamp.timeStyle)])]

def Theme.toFields (theme : Theme) : Fields :=
  unlessEmpty "logo" theme.logo ++
    [("nav", listOrNull NavItem.toValue theme.nav),
      ("sidebar", listOrNull SidebarGroup.toValue theme.sidebar),
      ("socialLinks", listOrNull SocialLink.toValue theme.socialLinks)] ++
    whenSome "search" (theme.search.map Search.toValue) ++
    whenSome "footer" (theme.footer.map Footer.toValue) ++
    whenSome "lastUpdated" (theme.lastUpdated.map LastUpdated.toValue)

def Site.toFields (site : Site) : Fields :=
  [("title", .text site.title), ("description", .text site.description)] ++
    unlessEmpty "lang" site.lang ++
    [("head", listOrNull HeadTag.toValue site.head),
      ("themeConfig", .record site.theme.toFields)]

theorem NavItem.toValues_eq_map (items : List NavItem) :
    NavItem.toValues items = items.map NavItem.toValue := by
  induction items with
  | nil => rfl
  | cons a r ih => simp [NavItem.toValues, ih]

end DocSite
