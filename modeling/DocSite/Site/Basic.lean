import DocSite.TextMap

namespace DocSite

structure HeadTag where
  tagName : String
  attributes : Option TextMap
deriving DecidableEq, Repr

structure NavItem where
  text : String
  link : String
  items : List NavItem
deriving Repr

structure SidebarItem where
  text : String
  link : String
deriving DecidableEq, Repr

structure SidebarGroup where
  text : String
  link : String
  collapsed : Option Bool
  items : List SidebarItem
deriving DecidableEq, Repr

structure SocialLink where
  icon : String
  link : String
deriving DecidableEq, Repr

structure Search where
  provider : String
  options : TextMap
deriving DecidableEq, Repr

structure Footer where
  message : String
  copyright : String
deriving DecidableEq, Repr

structure LastUpdated where
  text : String
  dateStyle : String
  timeStyle : String
deriving DecidableEq, Repr

structure Theme where
  logo : String
  nav : Option (List NavItem)
  sidebar : Option (List SidebarGroup)
  socialLinks : Option (List SocialLink)
  search : Option Search
  footer : Option Footer
  lastUpdated : Option LastUpdated
deriving Repr

/-- The configuration of a site. An empty text stands for one that was not given. -/
structure Site where
  title : String
  description : String
  lang : String
  head : Option (List HeadTag)
  theme : Theme
deriving Repr

def Theme.empty : Theme := ⟨"", none, none, none, none, none, none⟩

def Site.empty : Site := ⟨"", "", "", none, .empty⟩

def knownIcons : List String :=
  ["discord", "facebook", "github", "instagram", "linkedin", "mastodon", "npm", "slack", "twitter",
    "x", "youtube"]

def externalProvider : String := "external"

def knownProviders : List String := ["local", externalProvider]

def knownStyles : List String := ["full", "long", "medium", "short"]

def defaultLang : String := "en-US"

def LastUpdated.default : LastUpdated := ⟨"Last updated", "short", "short"⟩

end DocSite
