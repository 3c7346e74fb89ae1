import DocSite.Proofs.Site.Sidebar
import DocSite.Site.Reconcile
import Mathlib.Data.Set.Operations

namespace DocSite

def Text.IsLabel (s : String) : Prop :=
  s ≠ "" ∧ Text.trim s = s

instance (s : String) : Decidable (Text.IsLabel s) :=
  inferInstanceAs (Decidable (_ ∧ _))

def Link.IsNormal (s : String) : Prop :=
  s ∈ Set.range Link.normalize

structure HeadTag.WellFormed (tag : HeadTag) : Prop where
  tagName : Text.IsLabel tag.tagName
  assets : ∀ attributes ∈ tag.attributes, ∀ key ∈ Schema.assetAttributes,
    ∀ value ∈ attributes.get? key, value ≠ "" → Link.IsNormal value

inductive NavItem.Within : NavItem → List NavItem → Prop
  | top {item : NavItem} {l : List NavItem} : item ∈ l → NavItem.Within item l
  | inside {item menu : NavItem} {l : List NavItem} :
    menu ∈ l → NavItem.Within item menu.items → NavItem.Within item l

structure NavItem.WellFormed (item : NavItem) : Prop where
  text : Text.IsLabel item.text
  form : Xor (item.link ≠ "") (item.items ≠ [])
  link : item.link ≠ "" → Link.IsNormal item.link

structure SidebarItem.WellFormed (item : SidebarItem) : Prop where
  text : Text.IsLabel item.text
  link_ne : item.link ≠ ""
  link : Link.IsNormal item.link

structure SidebarGroup.WellFormed (group : SidebarGroup) : Prop where
  text : Text.IsLabel group.text
  form : Xor (group.link ≠ "") (group.items ≠ [])
  link : group.link ≠ "" → Link.IsNormal group.link
  collapsed : group.collapsed ≠ none → group.items ≠ []
  items : ∀ item ∈ group.items, item.WellFormed

structure SocialLink.WellFormed (link : SocialLink) : Prop where
  icon : link.icon ∈ knownIcons
  link : Link.isAbsoluteUrl link.link

structure Search.WellFormed (search : Search) : Prop where
  provider : search.provider ∈ knownProviders
  options : search.provider = externalProvider → search.options.isEmpty = false

structure Footer.WellFormed (footer : Footer) : Prop where
  message : Text.trim footer.message = footer.message
  copyright : Text.trim footer.copyright = footer.copyright

structure LastUpdated.WellFormed (stamp : LastUpdated) : Prop where
  text : Text.IsLabel stamp.text
  dateStyle : stamp.dateStyle ∈ knownStyles
  timeStyle : stamp.timeStyle ∈ knownStyles

structure Theme.WellFormed (theme : Theme) : Prop where
  logo : theme.logo ≠ "" → Link.IsNormal theme.logo
  nav : ∀ l ∈ theme.nav, ∀ item : NavItem, item.Within l → item.WellFormed
  sidebar : ∀ l ∈ theme.sidebar, ∀ group ∈ l, group.WellFormed
  sidebarLinks : ∀ l ∈ theme.sidebar,
    (sidebarLinks l).Pairwise fun a b => a ≠ b ∧ Link.normalize a ≠ Link.normalize b
  socialLinks : ∀ l ∈ theme.socialLinks, ∀ link ∈ l, link.WellFormed
  search : ∀ search ∈ theme.search, search.WellFormed
  footer : ∀ footer ∈ theme.footer, footer.WellFormed
  lastUpdated : ∀ stamp ∈ theme.lastUpdated, stamp.WellFormed

structure Site.WellFormed (site : Site) : Prop where
  title : Text.IsLabel site.title
  description : Text.IsLabel site.description
  lang : Text.IsLabel site.lang
  head : ∀ l ∈ site.head, ∀ tag ∈ l, tag.WellFormed
  theme : site.theme.WellFormed

theorem Link.isNormal_normalize (s : String) : Link.IsNormal (Link.normalize s) :=
  Set.mem_range_self s

theorem Link.IsNormal.not_blank {s : String} (h : Link.IsNormal s) : ¬Text.isBlankText s := by
  obtain ⟨raw, rfl⟩ := h
  simp

theorem Link.IsNormal.ne_empty {s : String} (h : Link.IsNormal s) : s ≠ "" := by
  rintro rfl
  exact h.not_blank rfl

theorem Text.isLabel_trim {s : String} (h : ¬Text.isBlankText s) : Text.IsLabel (Text.trim s) :=
  ⟨fun hs => h (Text.trim_eq_empty_iff.mp hs), Text.trim_trim s⟩

theorem Text.IsLabel.not_blank {s : String} (h : Text.IsLabel s) : ¬Text.isBlankText s := by
  intro hb
  exact h.1 (h.2.symm.trans (Text.trim_eq_empty_iff.mpr hb))

theorem Text.isLabel_textOr {standard : String} (h : Text.IsLabel standard) (s : Option String) :
    Text.IsLabel (Schema.textOr standard (s.map Text.trim)) := by
  cases s with
  | none => exact h
  | some s =>
    simp only [Option.map_some, Schema.textOr]
    split
    case isTrue => exact h
    case isFalse hs => exact ⟨hs, Text.trim_trim s⟩

theorem Value.ListOf.exists_of_mem {R : Value → α → Prop} {v : Value} {l : List α}
    (h : v.ListOf R l) {a : α} (ha : a ∈ l) : ∃ w, R w a := by
  obtain ⟨items, _, hl⟩ := h
  obtain ⟨w, _, hw⟩ := exists_of_mem_forall₂ hl ha
  exact ⟨w, hw⟩

theorem exists_of_rel {R : α → β → Prop} {o : Option α} {o' : Option β} (h : Option.Rel R o o')
    {b : β} (hb : b ∈ o') : ∃ a, R a b := by
  cases h with
  | none => cases hb
  | some hr =>
    obtain rfl := Option.some.inj hb
    exact ⟨_, hr⟩

theorem exists_of_rel_listOf {R : Value → α → Prop} {o : Option Value} {o' : Option (List α)}
    (h : Option.Rel (Value.ListOf R) o o') {l : List α} (hl : l ∈ o') {a : α} (ha : a ∈ l) :
    ∃ w, R w a := by
  obtain ⟨v, hv⟩ := exists_of_rel h hl
  exact hv.exists_of_mem ha

theorem HeadTag.DeclaredBy.wellFormed {v : Value} {tag : HeadTag} (h : HeadTag.DeclaredBy v tag) :
    tag.WellFormed := by
  obtain ⟨name, attributes, _, ⟨_, hraw, _⟩⟩ := h
  refine ⟨Text.isLabel_trim hraw, ?_⟩
  intro m hm key hkey value hvalue hne
  obtain ⟨texts, _, rfl⟩ := Option.map_eq_some_iff.mp hm
  rw [Schema.normalizeAssets, TextMap.get?_mapValues] at hvalue
  obtain ⟨raw, _, rfl⟩ := Option.map_eq_some_iff.mp hvalue
  have hasset : Schema.assetAttributes.contains key = true := List.contains_iff_mem.mpr hkey
  simp only [hasset, Bool.true_and] at hne ⊢
  split at hne
  case isTrue h => simpa [h] using Link.isNormal_normalize raw
  case isFalse h => exact absurd (by simpa using h) hne

namespace NavItem

theorem DeclaredBy.wellFormed {v : Value} {item : NavItem} (h : NavItem.DeclaredBy v item) :
    item.WellFormed := by
  cases h with
  | link _ htext _ _ =>
    exact ⟨Text.isLabel_trim htext.2, .inl ⟨Link.normalize_ne_empty _, by simp⟩,
      fun _ => Link.isNormal_normalize _⟩
  | menu _ htext _ _ _ _ hne =>
    exact ⟨Text.isLabel_trim htext.2, .inr ⟨hne, by simp⟩, fun h => absurd rfl h⟩

theorem DeclaredBy.exists_of_mem_items {v : Value} {menu item : NavItem}
    (h : NavItem.DeclaredBy v menu) (hi : item ∈ menu.items) : ∃ w, NavItem.DeclaredBy w item := by
  cases h with
  | link => cases hi
  | menu _ _ _ _ _ hitems _ =>
    obtain ⟨w, _, hw⟩ := exists_of_mem_forall₂ hitems hi
    exact ⟨w, hw⟩

theorem Within.wellFormed {item : NavItem} {l : List NavItem} (hw : item.Within l)
    (h : ∀ top ∈ l, ∃ v, NavItem.DeclaredBy v top) : item.WellFormed := by
  -- by how deep the entry stands: the entries of every menu on the way are declared too
  induction hw with
  | top hi =>
    obtain ⟨v, hv⟩ := h _ hi
    exact hv.wellFormed
  | inside hm _ ih =>
    obtain ⟨v, hv⟩ := h _ hm
    exact ih fun _ hi => hv.exists_of_mem_items hi

end NavItem

theorem SidebarItem.DeclaredBy.wellFormed {v : Value} {item : SidebarItem}
    (h : SidebarItem.DeclaredBy v item) : item.WellFormed := by
  cases h with
  | mk _ htext _ =>
    exact ⟨Text.isLabel_trim htext.2, Link.normalize_ne_empty _, Link.isNormal_normalize _⟩

theorem SidebarGroup.DeclaredBy.wellFormed {v : Value} {group : SidebarGroup}
    (h : SidebarGroup.DeclaredBy v group) : group.WellFormed := by
  cases h with
  | link _ htext _ _ _ =>
    exact ⟨Text.isLabel_trim htext.2, .inl ⟨Link.normalize_ne_empty _, by simp⟩,
      fun _ => Link.isNormal_normalize _, fun h => absurd rfl h, by simp⟩
  | group _ htext _ _ hitems hne _ =>
    refine ⟨Text.isLabel_trim htext.2, .inr ⟨hne, by simp⟩, fun h => absurd rfl h, fun _ => hne, ?_⟩
    intro item hitem
    obtain ⟨w, hw⟩ := hitems.exists_of_mem hitem
    exact hw.wellFormed

theorem SocialLink.DeclaredBy.wellFormed {v : Value} {link : SocialLink}
    (h : SocialLink.DeclaredBy v link) : link.WellFormed := by
  cases h with
  | mk _ _ hicon _ hurl => exact ⟨hicon, hurl⟩

theorem Search.DeclaredBy.wellFormed {v : Value} {search : Search}
    (h : Search.DeclaredBy v search) : search.WellFormed := by
  cases h with
  | mk _ _ hprovider _ hneed => exact ⟨hprovider, hneed⟩

theorem Footer.DeclaredBy.wellFormed {v : Value} {footer : Footer}
    (h : Footer.DeclaredBy v footer) : footer.WellFormed := by
  have htrim : ∀ s : Option String,
      Text.trim ((s.map Text.trim).getD "") = (s.map Text.trim).getD "" := by
    intro s
    cases s with
    | none => rfl
    | some s => exact Text.trim_trim s
  cases h with
  | mk _ _ _ => exact ⟨htrim _, htrim _⟩

theorem Fields.StyleBy.mem_knownStyles {fields : Fields} {key standard s : String}
    (h : fields.StyleBy key standard s) (hs : standard ∈ knownStyles) : s ∈ knownStyles := by
  obtain ⟨chosen, _, hchosen, rfl⟩ := h
  cases chosen with
  | none => exact hs
  | some word => exact hchosen word rfl

theorem LastUpdated.wellFormed_default : LastUpdated.default.WellFormed :=
  ⟨by decide +kernel, by decide, by decide⟩

theorem LastUpdated.DeclaredBy.wellFormed {v : Value} {o : Option LastUpdated}
    (h : LastUpdated.DeclaredBy v o) : ∀ stamp ∈ o, stamp.WellFormed := by
  intro stamp hs
  cases h with
  | on =>
    obtain rfl := Option.some.inj hs
    exact wellFormed_default
  | off => cases hs
  | described _ _ _ hdate htime =>
    obtain rfl := Option.some.inj hs
    exact ⟨Text.isLabel_textOr wellFormed_default.text _,
      hdate.mem_knownStyles wellFormed_default.dateStyle,
      htime.mem_knownStyles wellFormed_default.timeStyle⟩

theorem Theme.LogoBy.isNormal {fields : Fields} {logo : String} (h : Theme.LogoBy fields logo)
    (hne : logo ≠ "") : Link.IsNormal logo := by
  cases h with
  | absent => exact absurd rfl hne
  | blank => exact absurd rfl hne
  | link => exact Link.isNormal_normalize _

theorem CollisionFree.pairwise {sidebar : List SidebarGroup} (h : CollisionFree sidebar) :
    (sidebarLinks sidebar).Pairwise fun a b => a ≠ b ∧ Link.normalize a ≠ Link.normalize b := by
  rw [CollisionFree, List.Nodup, List.pairwise_map] at h
  exact h.imp fun hab => ⟨fun he => hab (congrArg _ he), hab⟩

theorem Theme.DeclaredBy.wellFormed {fields : Fields} {theme : Theme}
    (h : theme.DeclaredBy fields) (hfree : CollisionFree (theme.sidebar.getD [])) :
    theme.WellFormed where
  logo := h.logo.isNormal
  nav l hl item hitem := hitem.wellFormed fun _ ht => exists_of_rel_listOf h.nav hl ht
  sidebar l hl group hg := by
    obtain ⟨v, hv⟩ := exists_of_rel_listOf h.sidebar hl hg
    exact hv.wellFormed
  sidebarLinks l hl := by
    rw [Option.mem_def.mp hl] at hfree
    exact hfree.pairwise
  socialLinks l hl link hlink := by
    obtain ⟨v, hv⟩ := exists_of_rel_listOf h.socialLinks hl hlink
    exact hv.wellFormed
  search search hs := by
    obtain ⟨v, hv⟩ := exists_of_rel h.search hs
    exact hv.wellFormed
  footer footer hf := by
    obtain ⟨v, hv⟩ := exists_of_rel h.footer hf
    exact hv.wellFormed
  lastUpdated stamp hs := by
    have hlast := h.lastUpdated
    split at hlast
    · rw [hlast] at hs
      cases hs
    · exact hlast.wellFormed stamp hs

theorem Theme.wellFormed_empty : Theme.empty.WellFormed := by
  constructor <;> simp [Theme.empty]

theorem Site.DeclaredBy.wellFormed {fields : Fields} {site : Site} (h : site.DeclaredBy fields)
    (hfree : CollisionFree (site.theme.sidebar.getD [])) : site.WellFormed where
  title := by
    obtain ⟨s, hs, ht⟩ := h.title
    exact ht ▸ Text.isLabel_trim hs.2
  description := by
    obtain ⟨s, hs, ht⟩ := h.description
    exact ht ▸ Text.isLabel_trim hs.2
  lang := by
    obtain ⟨s, _, ht⟩ := h.lang
    exact ht ▸ Text.isLabel_textOr (by decide +kernel) s
  head l hl tag htag := by
    obtain ⟨v, hv⟩ := exists_of_rel_listOf h.head hl htag
    exact hv.wellFormed
  theme := by
    obtain ⟨theme, hrel, ht⟩ := h.theme
    cases theme with
    | none => exact ht ▸ Theme.wellFormed_empty
    | some theme =>
      obtain ⟨v, f, _, hf⟩ := exists_of_rel hrel rfl
      rw [ht] at hfree ⊢
      exact hf.wellFormed hfree

theorem wellFormed_of_build {declaration : Fields} {r : Report} (h : build declaration = .ok r) :
    r.site.WellFormed := by
  obtain ⟨hd, hfree, _⟩ := build_eq_ok_iff.mp h
  exact hd.wellFormed hfree

section Reconcile

variable {older newer : Site}

theorem takeText_induct {motive : String → Prop} {older newer : String} (ho : motive older)
    (hn : motive newer) : motive (takeText older newer) := by
  rw [takeText]
  split
  · exact ho
  · exact hn

theorem mem_takeList {l : List α} {older newer : Option (List α)}
    (h : l ∈ takeList older newer) : l ∈ older ∨ l ∈ newer := by
  cases newer with
  | some n => exact .inr h
  | none => exact .inl (Option.filter_eq_some_iff.mp h).1

theorem mem_orElse {a : α} {older newer : Option α} (h : a ∈ (newer <|> older)) :
    a ∈ older ∨ a ∈ newer := by
  cases newer with
  | some n => exact .inr h
  | none => exact .inl h

theorem Theme.WellFormed.reconcile {older newer : Theme} (ho : older.WellFormed)
    (hn : newer.WellFormed) : (older.reconcile newer).WellFormed where
  logo := takeText_induct (motive := fun s => s ≠ "" → Link.IsNormal s) ho.logo hn.logo
  nav l hl := (mem_takeList hl).elim (ho.nav l) (hn.nav l)
  sidebar l hl := (mem_takeList hl).elim (ho.sidebar l) (hn.sidebar l)
  sidebarLinks l hl := (mem_takeList hl).elim (ho.sidebarLinks l) (hn.sidebarLinks l)
  socialLinks l hl := (mem_takeList hl).elim (ho.socialLinks l) (hn.socialLinks l)
  search s hs := (mem_orElse hs).elim (ho.search s) (hn.search s)
  footer f hf := (mem_orElse hf).elim (ho.footer f) (hn.footer f)
  lastUpdated stamp hs := (mem_orElse hs).elim (ho.lastUpdated stamp) (hn.lastUpdated stamp)

theorem Site.WellFormed.reconcile (ho : older.WellFormed) (hn : newer.WellFormed) :
    (older.reconcile newer).WellFormed where
  title := takeText_induct ho.title hn.title
  description := takeText_induct ho.description hn.description
  lang := takeText_induct ho.lang hn.lang
  head l hl := (mem_takeList hl).elim (ho.head l) (hn.head l)
  theme := ho.theme.reconcile hn.theme

end Reconcile

/-- The configurations that can come up: built from a declaration, or laid over each other. -/
inductive Site.Held : Site → Prop
  | built {declaration : Fields} {r : Report} : build declaration = .ok r → Site.Held r.site
  | reconciled {older newer : Site} :
    Site.Held older → Site.Held newer → Site.Held (older.reconcile newer)

/-- Every configuration that can come up is well formed. -/
theorem Site.held_wellFormed {site : Site} (h : site.Held) : site.WellFormed := by
  induction h with
  | built hbuild => exact wellFormed_of_build hbuild
  | reconciled _ _ ho hn => exact ho.reconcile hn

theorem Site.held_wellFormed_nav_sidebar :
    ∃ older newer,
      build [("title", .text " Docs"), ("description", .text "Old"),
        ("themeConfig", .record [("nav", .list [.record [("text", .text "Guide"),
          ("items", .list [.record [("text", .text "Start"), ("link", .text "start/")]])]])])] =
        .ok older ∧
      build [("title", .text "Docs"), ("description", .text "New"),
        ("themeConfig", .record [("sidebar", .list [.record [("text", .text "Guide"),
          ("collapsed", .bool true),
          ("items", .list [.record [("text", .text "Start "), ("link", .text "/start")]])]])])] =
        .ok newer ∧
      (older.site.reconcile newer.site).theme.nav.isSome ∧
      (older.site.reconcile newer.site).theme.sidebar.isSome ∧
      (older.site.reconcile newer.site).WellFormed := by
  refine ⟨?_, ?_, ?older, ?newer, ?nav, ?sidebar,
    Site.held_wellFormed (.reconciled (.built ?older) (.built ?newer))⟩
  case older => rfl
  case newer => rfl
  case nav => rfl
  case sidebar => rfl

end DocSite
