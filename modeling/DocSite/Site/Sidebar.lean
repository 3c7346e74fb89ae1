import DocSite.Finding
import DocSite.Link.Normal
import DocSite.Site.Basic

namespace DocSite

def SidebarGroup.targets (group : SidebarGroup) : List (String × String) :=
  (if group.link = "" then [] else [(Link.normalize group.link, group.text)]) ++
    group.items.map fun item => (Link.normalize item.link, group.text)

def sidebarTargets (sidebar : List SidebarGroup) : List (String × String) :=
  sidebar.flatMap SidebarGroup.targets

def firstOccurrences [BEq α] : List α → List α
  | [] => []
  | a :: r => a :: (firstOccurrences r).filter (· != a)

def groupsOf (link : String) (targets : List (String × String)) : List String :=
  (targets.filter (·.1 == link)).map (·.2)

/-- A finding for every link that occurs more than once, in the order of first occurrence. -/
def duplicateLinks (sidebar : List SidebarGroup) : List Finding :=
  let targets := sidebarTargets sidebar
  (firstOccurrences (targets.map (·.1))).filterMap fun link =>
    let groups := groupsOf link targets
    if 1 < groups.length then some (.duplicateLink link groups) else none

def sidebarFault? (sidebar : List SidebarGroup) : Option Fault :=
  match duplicateLinks sidebar with
  | [] => none
  | found => some (.join (found.map .finding))

end DocSite
