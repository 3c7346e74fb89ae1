import DocSite.Proofs.Site.Declaration
import DocSite.Site.Memory
import Mathlib.Data.List.Forall2
import Mathlib.Data.Option.Basic

namespace DocSite

section Contents

variable (region : Region)

theorem HeadTag.contents_layOut (tag : HeadTag) : (tag.layOut region).contents = tag := by
  simp [layOut, Memory.HeadTag.contents, Option.map_map, Function.comp_def]

theorem NavItem.layOutAll_eq_map (items : List NavItem) :
    layOutAll region items = items.map (layOut region) := by
  induction items with
  | nil => rfl
  | cons item r ih => rw [layOutAll, ih, List.map_cons]

theorem Memory.NavItem.allContents_eq_map (items : List Memory.NavItem) :
    allContents items = items.map contents := by
  induction items with
  | nil => rfl
  | cons item r ih => rw [allContents, ih, List.map_cons]

theorem NavItem.contents_layOut (item : NavItem) : (item.layOut region).contents = item := by
  induction item with
  | mk text link items ih =>
    have hitems : items.map (fun item => (item.layOut region).contents) = items :=
      (List.map_congr_left (g := id) ih).trans (List.map_id items)
    rw [layOut, Memory.NavItem.contents, layOutAll_eq_map, Memory.NavItem.allContents_eq_map,
      List.map_map]
    exact congrArg (NavItem.mk text link) hitems

theorem SidebarGroup.contents_layOut (group : SidebarGroup) :
    (group.layOut region).contents = group := by
  simp [layOut, Memory.SidebarGroup.contents, Option.map_map, Function.comp_def]

theorem Theme.contents_layOut (theme : Theme) : (theme.layOut region).contents = theme := by
  simp [layOut, Memory.Theme.contents, Search.layOut, Memory.Search.contents, Option.map_map,
    Function.comp_def, NavItem.layOutAll_eq_map, Memory.NavItem.allContents_eq_map,
    NavItem.contents_layOut, SidebarGroup.contents_layOut]

theorem Site.contents_layOut (site : Site) : (site.layOut region).contents = site := by
  simp [layOut, Memory.Site.contents, Option.map_map, Function.comp_def, Theme.contents_layOut,
    HeadTag.contents_layOut]

end Contents

theorem Cell.copy_eq {α : Type} (part : α → α) (region : Region) :
    Cell.copy part region = fun cell => ⟨region, part cell.value⟩ := rfl

namespace Memory

section Copy

variable (region : Region)

theorem HeadTag.copy_eq_layOut (tag : HeadTag) : tag.copy region = tag.contents.layOut region := by
  simp [copy, contents, DocSite.HeadTag.layOut, Option.map_map, Function.comp_def, Cell.copy_eq]

mutual

theorem NavItem.copy_eq_layOut :
    ∀ item : NavItem, item.copy region = item.contents.layOut region
  | ⟨text, link, _, items⟩ => by
    rw [copy, contents, DocSite.NavItem.layOut, NavItem.copyAll_eq_layOutAll]

theorem NavItem.copyAll_eq_layOutAll : ∀ items : List NavItem,
    copyAll region items = DocSite.NavItem.layOutAll region (allContents items)
  | [] => rfl
  | item :: r => by
    rw [copyAll, allContents, DocSite.NavItem.layOutAll, NavItem.copy_eq_layOut item,
      NavItem.copyAll_eq_layOutAll r]

end

theorem SidebarGroup.copy_eq_layOut (group : SidebarGroup) :
    group.copy region = group.contents.layOut region := by
  simp [copy, contents, DocSite.SidebarGroup.layOut, Option.map_map, Function.comp_def,
    Cell.copy_eq]

theorem Search.copy_eq_layOut (search : Search) :
    search.copy region = search.contents.layOut region := rfl

theorem Theme.copy_eq_layOut (theme : Theme) :
    theme.copy region = theme.contents.layOut region := by
  have hgroup : SidebarGroup.copy region = fun group => group.contents.layOut region :=
    funext (SidebarGroup.copy_eq_layOut region)
  simp [copy, contents, DocSite.Theme.layOut, Search.copy_eq_layOut, Option.map_map,
    Function.comp_def, Cell.copy_eq, NavItem.copyAll_eq_layOutAll, hgroup]

theorem Site.copy_eq_layOut (site : Site) : site.copy region = site.contents.layOut region := by
  have htag : HeadTag.copy region = fun tag => tag.contents.layOut region :=
    funext (HeadTag.copy_eq_layOut region)
  simp [copy, contents, DocSite.Site.layOut, Option.map_map, Function.comp_def, Cell.copy_eq, htag,
    Theme.copy_eq_layOut]

theorem Site.contents_copy (site : Site) : (site.copy region).contents = site.contents := by
  rw [copy_eq_layOut, DocSite.Site.contents_layOut]

end Copy

end Memory

def Still {α : Type} (r : α → α → Prop) (a : α) : Prop := ∀ b, r a b → b = a

/-- What can have become of a cell. If its region is known, it may hold anything. -/
def Cell.Altered {α : Type} (known : Region → Prop) (r : α → α → Prop) (cell later : Cell α) :
    Prop :=
  later.region = cell.region ∧ (known cell.region ∨ r cell.value later.value)

section Still

variable {α β : Type} {r : α → α → Prop} {known : Region → Prop} {region : Region}

theorem Still.eq (a : α) : Still Eq a := fun _ h => h.symm

theorem Still.map {f : β → α} {l : List β} (h : ∀ b ∈ l, Still r (f b)) :
    Still (List.Forall₂ r) (l.map f) := by
  intro later hl
  induction l generalizing later with
  | nil =>
    cases hl
    rfl
  | cons b l ih =>
    obtain ⟨a, m, ha, hm, rfl⟩ := List.forall₂_cons_left_iff.mp hl
    rw [List.map_cons, h b List.mem_cons_self a ha,
      ih (fun b hb => h b (List.mem_cons_of_mem _ hb)) m hm]

theorem Still.cell (hregion : ¬known region) {a : α} (h : Still r a) :
    Still (Cell.Altered known r) (.mk region a) := by
  rintro ⟨_, b⟩ ⟨rfl, hb⟩
  rw [h b (hb.resolve_left hregion)]

theorem Still.option {f : β → Cell α} {o : Option β}
    (h : ∀ b ∈ o, Still (Cell.Altered known r) (f b)) :
    Still (Option.Rel (Cell.Altered known r)) (o.map f) := by
  intro later hl
  cases o with
  | none =>
    cases hl
    rfl
  | some b =>
    cases hl with
    | some hb => rw [Option.map_some, h b rfl _ hb]

end Still

namespace Memory

variable (known : Region → Prop)

structure HeadTag.Altered (tag later : HeadTag) : Prop where
  tagName : later.tagName = tag.tagName
  attributes : Option.Rel (Cell.Altered known Eq) tag.attributes later.attributes

inductive NavItem.Altered : NavItem → NavItem → Prop
  | written {text link region items later} : known region →
    Altered ⟨text, link, region, items⟩ ⟨text, link, region, later⟩
  | inside {text link region items later} : List.Forall₂ Altered items later →
    Altered ⟨text, link, region, items⟩ ⟨text, link, region, later⟩

structure SidebarGroup.Altered (group later : SidebarGroup) : Prop where
  text : later.text = group.text
  link : later.link = group.link
  collapsed : Option.Rel (Cell.Altered known Eq) group.collapsed later.collapsed
  items : group.items.Altered known Eq later.items

structure Search.Altered (search later : Search) : Prop where
  provider : later.provider = search.provider
  options : search.options.Altered known Eq later.options

structure Theme.Altered (theme later : Theme) : Prop where
  logo : later.logo = theme.logo
  nav : Option.Rel (Cell.Altered known (List.Forall₂ (NavItem.Altered known))) theme.nav later.nav
  sidebar : Option.Rel (Cell.Altered known (List.Forall₂ (SidebarGroup.Altered known)))
    theme.sidebar later.sidebar
  socialLinks : Option.Rel (Cell.Altered known Eq) theme.socialLinks later.socialLinks
  search : Option.Rel (Cell.Altered known (Search.Altered known)) theme.search later.search
  footer : Option.Rel (Cell.Altered known Eq) theme.footer later.footer
  lastUpdated : Option.Rel (Cell.Altered known Eq) theme.lastUpdated later.lastUpdated

structure Site.Altered (site later : Site) : Prop where
  title : later.title = site.title
  description : later.description = site.description
  lang : later.lang = site.lang
  head : Option.Rel (Cell.Altered known (List.Forall₂ (HeadTag.Altered known))) site.head later.head
  theme : site.theme.Altered known later.theme

end Memory

section Private

variable {known : Region → Prop} {region : Region}

theorem HeadTag.still_layOut (h : ¬known region) (tag : HeadTag) :
    Still (Memory.HeadTag.Altered known) (tag.layOut region) := by
  rintro ⟨_, attributes⟩ ⟨rfl, hattributes⟩
  obtain rfl := Still.option (fun _ _ => .cell h (.eq _)) attributes hattributes
  rfl

theorem NavItem.still_layOut (h : ¬known region) (item : NavItem) :
    Still (Memory.NavItem.Altered known) (item.layOut region) := by
  induction item with
  | mk text link items ih =>
    intro later hlater
    rw [layOut, layOutAll_eq_map] at hlater ⊢
    cases hlater with
    | written hregion => exact absurd hregion h
    | inside hitems => rw [Still.map ih _ hitems]

theorem NavItem.still_layOutAll (h : ¬known region) (items : List NavItem) :
    Still (List.Forall₂ (Memory.NavItem.Altered known)) (layOutAll region items) := by
  rw [layOutAll_eq_map]
  exact .map fun item _ => item.still_layOut h

theorem SidebarGroup.still_layOut (h : ¬known region) (group : SidebarGroup) :
    Still (Memory.SidebarGroup.Altered known) (group.layOut region) := by
  rintro ⟨_, _, collapsed, items⟩ ⟨rfl, rfl, hcollapsed, hitems⟩
  obtain rfl := Still.option (fun _ _ => .cell h (.eq _)) collapsed hcollapsed
  obtain rfl := Still.cell h (.eq _) items hitems
  rfl

theorem Search.still_layOut (h : ¬known region) (search : Search) :
    Still (Memory.Search.Altered known) (search.layOut region) := by
  rintro ⟨_, options⟩ ⟨rfl, hoptions⟩
  obtain rfl := Still.cell h (.eq _) options hoptions
  rfl

theorem Theme.still_layOut (h : ¬known region) (theme : Theme) :
    Still (Memory.Theme.Altered known) (theme.layOut region) := by
  rintro ⟨_, nav, sidebar, socialLinks, search, footer, lastUpdated⟩
    ⟨rfl, hnav, hsidebar, hsocialLinks, hsearch, hfooter, hlastUpdated⟩
  obtain rfl := Still.option (fun items _ => .cell h (NavItem.still_layOutAll h items)) nav hnav
  obtain rfl := Still.option
    (fun _ _ => .cell h (.map fun group _ => group.still_layOut h)) sidebar hsidebar
  obtain rfl := Still.option (fun _ _ => .cell h (.eq _)) socialLinks hsocialLinks
  obtain rfl := Still.option (fun search _ => .cell h (search.still_layOut h)) search hsearch
  obtain rfl := Still.option (fun _ _ => .cell h (.eq _)) footer hfooter
  obtain rfl := Still.option (fun _ _ => .cell h (.eq _)) lastUpdated hlastUpdated
  rfl

/-- What lies in a region that nobody knows stays as it is. -/
theorem Site.still_layOut (h : ¬known region) (site : Site) :
    Still (Memory.Site.Altered known) (site.layOut region) := by
  rintro ⟨_, _, _, head, theme⟩ ⟨rfl, rfl, rfl, hhead, htheme⟩
  obtain rfl := Still.option (fun _ _ => .cell h (.map fun tag _ => tag.still_layOut h)) head hhead
  obtain rfl := site.theme.still_layOut h theme htheme
  rfl

end Private

end DocSite
