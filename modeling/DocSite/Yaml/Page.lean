import DocSite.Site.Basic
import DocSite.Yaml.Writer

namespace DocSite

open Yaml (Tree)

def Yaml.unlessEmpty (key s : String) : List (String × Tree) :=
  if s = "" then [] else [(key, .text s)]

def TextMap.toTree (m : TextMap) : Tree :=
  .mapping ((Text.sortBy (fun a b => Yaml.naturalBefore a.1 b.1) m.entries).map fun e =>
    (e.1, .text e.2))

def HeadTag.toTree (tag : HeadTag) : Tree :=
  .mapping [("tagName", .text tag.tagName), ("attributes", (tag.attributes.getD .empty).toTree)]

mutual

def NavItem.toTree : NavItem → Tree
  | ⟨text, link, items⟩ =>
    .mapping (("text", .text text) :: Yaml.unlessEmpty "link" link ++
      if items.isEmpty then [] else [("items", .sequence (NavItem.toTrees items))])

def NavItem.toTrees : List NavItem → List Tree
  | [] => []
  | item :: r => item.toTree :: NavItem.toTrees r

end

def SidebarItem.toTree (item : SidebarItem) : Tree :=
  .mapping [("text", .text item.text), ("link", .text item.link)]

def SidebarGroup.toTree (group : SidebarGroup) : Tree :=
  .mapping (("text", .text group.text) :: Yaml.unlessEmpty "link" group.link ++
    (group.collapsed.map fun b => ("collapsed", Tree.bool b)).toList ++
    if group.items.isEmpty then [] else [("items", .sequence (group.items.map SidebarItem.toTree))])

def SocialLink.toTree (link : SocialLink) : Tree :=
  .mapping [("icon", .text link.icon), ("link", .text link.link)]

def Search.toTree (search : Search) : Tree :=
  .mapping (("provider", .text search.provider) ::
    if search.options.isEmpty then [] else [("options", search.options.toTree)])

def Footer.toTree (footer : Footer) : Tree :=
  .mapping (Yaml.unlessEmpty "message" footer.message ++
    Yaml.unlessEmpty "copyright" footer.copyright)

def LastUpdated.toTree (stamp : LastUpdated) : Tree :=
  .mapping [("text", .text stamp.text),
    ("formatOptions",
      .mapping [("dateStyle", .text stamp.dateStyle), ("timeStyle", .text stamp.timeStyle)])]

def Yaml.listTree (write : α → Tree) (l : Option (List α)) : Tree :=
  .sequence ((l.getD []).map write)

def Theme.toTree (theme : Theme) : Tree :=
  .mapping (Yaml.unlessEmpty "logo" theme.logo ++
    [("nav", Yaml.listTree NavItem.toTree theme.nav),
      ("sidebar", Yaml.listTree SidebarGroup.toTree theme.sidebar),
      ("socialLinks", Yaml.listTree SocialLink.toTree theme.socialLinks)] ++
    (theme.search.map fun s => ("search", s.toTree)).toList ++
    (theme.footer.map fun f => ("footer", f.toTree)).toList ++
    (theme.lastUpdated.map fun l => ("lastUpdated", l.toTree)).toList)

def Site.toTree (site : Site) : Tree :=
  .mapping ([("title", .text site.title), ("description", .text site.description)] ++
    Yaml.unlessEmpty "lang" site.lang ++
    [("head", Yaml.listTree HeadTag.toTree site.head), ("themeConfig", site.theme.toTree)])

end DocSite
