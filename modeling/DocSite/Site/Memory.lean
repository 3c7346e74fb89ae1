import DocSite.Site.Basic

/-!
Configurations as they lie in memory. Lists, mappings and optional parts lie in regions: whoever
knows the region can write into it, and two configurations that have a region in common change
together. Texts are never written into. A copy has the same contents in a region of its own.
-/

namespace DocSite

abbrev Region := Nat

structure Cell (α : Type) where
  region : Region
  value : α

def Cell.copy {α : Type} (part : α → α) (region : Region) (cell : Cell α) : Cell α :=
  ⟨region, part cell.value⟩

namespace Memory

-- Parts that hold nothing but texts are taken over as they are.

structure HeadTag where
  tagName : String
  attributes : Option (Cell TextMap)

structure NavItem where
  text : String
  link : String
  region : Region
  items : List NavItem

structure SidebarGroup where
  text : String
  link : String
  collapsed : Option (Cell Bool)
  items : Cell (List SidebarItem)

structure Search where
  provider : String
  options : Cell TextMap

structure Theme where
  logo : String
  nav : Option (Cell (List NavItem))
  sidebar : Option (Cell (List SidebarGroup))
  socialLinks : Option (Cell (List SocialLink))
  search : Option (Cell Search)
  footer : Option (Cell Footer)
  lastUpdated : Option (Cell LastUpdated)

structure Site where
  title : String
  description : String
  lang : String
  head : Option (Cell (List HeadTag))
  theme : Theme

section Contents

def HeadTag.contents (tag : HeadTag) : DocSite.HeadTag :=
  ⟨tag.tagName, tag.attributes.map Cell.value⟩

mutual

def NavItem.contents : NavItem → DocSite.NavItem
  | ⟨text, link, _, items⟩ => ⟨text, link, NavItem.allContents items⟩

def NavItem.allContents : List NavItem → List DocSite.NavItem
  | [] => []
  | item :: r => item.contents :: NavItem.allContents r

end

def SidebarGroup.contents (group : SidebarGroup) : DocSite.SidebarGroup :=
  ⟨group.text, group.link, group.collapsed.map Cell.value, group.items.value⟩

def Search.contents (search : Search) : DocSite.Search := ⟨search.provider, search.options.value⟩

def Theme.contents (theme : Theme) : DocSite.Theme where
  logo := theme.logo
  nav := theme.nav.map fun c => NavItem.allContents c.value
  sidebar := theme.sidebar.map fun c => c.value.map SidebarGroup.contents
  socialLinks := theme.socialLinks.map Cell.value
  search := theme.search.map fun c => c.value.contents
  footer := theme.footer.map Cell.value
  lastUpdated := theme.lastUpdated.map Cell.value

def Site.contents (site : Site) : DocSite.Site where
  title := site.title
  description := site.description
  lang := site.lang
  head := site.head.map fun c => c.value.map HeadTag.contents
  theme := site.theme.contents

end Contents

section Copy

variable (region : Region)

def HeadTag.copy (tag : HeadTag) : HeadTag :=
  { tag with attributes := tag.attributes.map (.copy id region) }

mutual

def NavItem.copy : NavItem → NavItem
  | ⟨text, link, _, items⟩ => ⟨text, link, region, NavItem.copyAll items⟩

def NavItem.copyAll : List NavItem → List NavItem
  | [] => []
  | item :: r => item.copy :: NavItem.copyAll r

end

def SidebarGroup.copy (group : SidebarGroup) : SidebarGroup :=
  { group with
    collapsed := group.collapsed.map (.copy id region)
    items := group.items.copy id region }

def Search.copy (search : Search) : Search :=
  { search with options := search.options.copy id region }

def Theme.copy (theme : Theme) : Theme :=
  { theme with
    nav := theme.nav.map (.copy (NavItem.copyAll region) region)
    sidebar := theme.sidebar.map (.copy (List.map (SidebarGroup.copy region)) region)
    socialLinks := theme.socialLinks.map (.copy id region)
    search := theme.search.map (.copy (Search.copy region) region)
    footer := theme.footer.map (.copy id region)
    lastUpdated := theme.lastUpdated.map (.copy id region) }

/-- A copy of a configuration. Every list, every mapping and every optional part is copied, too. -/
def Site.copy (site : Site) : Site :=
  { site with
    head := site.head.map (.copy (List.map (HeadTag.copy region)) region)
    theme := site.theme.copy region }

end Copy

end Memory

section Layout

variable (region : Region)

def HeadTag.layOut (tag : HeadTag) : Memory.HeadTag :=
  ⟨tag.tagName, tag.attributes.map (.mk region)⟩

mutual

def NavItem.layOut : NavItem → Memory.NavItem
  | ⟨text, link, items⟩ => ⟨text, link, region, NavItem.layOutAll items⟩

def NavItem.layOutAll : List NavItem → List Memory.NavItem
  | [] => []
  | item :: r => item.layOut :: NavItem.layOutAll r

end

def SidebarGroup.layOut (group : SidebarGroup) : Memory.SidebarGroup :=
  ⟨group.text, group.link, group.collapsed.map (.mk region), .mk region group.items⟩

def Search.layOut (search : Search) : Memory.Search := ⟨search.provider, .mk region search.options⟩

def Theme.layOut (theme : Theme) : Memory.Theme where
  logo := theme.logo
  nav := theme.nav.map fun items => .mk region (NavItem.layOutAll region items)
  sidebar := theme.sidebar.map fun groups => .mk region (groups.map (SidebarGroup.layOut region))
  socialLinks := theme.socialLinks.map (.mk region)
  search := theme.search.map fun search => .mk region (search.layOut region)
  footer := theme.footer.map (.mk region)
  lastUpdated := theme.lastUpdated.map (.mk region)

def Site.layOut (site : Site) : Memory.Site where
  title := site.title
  description := site.description
  lang := site.lang
  head := site.head.map fun tags => .mk region (tags.map (HeadTag.layOut region))
  theme := site.theme.layOut region

end Layout

end DocSite
