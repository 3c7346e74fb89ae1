import DocSite.Proofs.Schema.Restated
import DocSite.Proofs.Site.Depth
import DocSite.Proofs.Yaml.Reader
import DocSite.Yaml.Page

namespace DocSite

open Yaml

namespace Yaml

theorem itemValues_eq_map (items : List Tree) : itemValues items = items.map Tree.value := by
  induction items with
  | nil => rfl
  | cons t r ih => rw [itemValues, ih, List.map_cons]

theorem entryValues_eq_map (entries : List (String × Tree)) :
    entryValues entries = entries.map fun e => (e.1, e.2.value) := by
  induction entries with
  | nil => rfl
  | cons e r ih => rw [entryValues, ih, List.map_cons]

section Kept

theorem keepsText_of_head {s : String} (h : ∀ c ∈ s.toList.head?, Text.isBlank c = false) :
    keepsText s := by
  by_cases hstyle : styleOf s = .literal
  · cases hs : s.toList with
    | nil => simpa [hs] using newLine_mem_of_literal hstyle
    | cons c r =>
      have hc := h c (by simp [hs])
      simp only [Text.isBlank, Bool.or_eq_false_iff, Bool.and_eq_false_iff, decide_eq_false_iff_not,
        beq_eq_false_iff_ne] at hc
      have htab : c ≠ '\t' := by
        rintro rfl
        simp at hc
      have hbreak : isBreak c = false := by
        simp only [isBreak, Bool.or_eq_false_iff, beq_eq_false_iff_ne]
        omega
      simp [keepsText, hs, htab, hbreak]
  · simp [keepsText, hstyle]

theorem keepsText_of_trim {s : String} (h : Text.trim s = s) : keepsText s := by
  refine keepsText_of_head fun c hc => ?_
  rw [← h, Text.toList_trim] at hc
  exact Text.head?_trimChars hc

theorem keepsText_of_isNormal {s : String} (h : Link.IsNormal s) : keepsText s := by
  obtain ⟨link, rfl⟩ := h
  refine keepsText_of_head fun c hc => ?_
  rw [Link.normalize, String.toList_ofList] at hc
  by_cases hout : Link.leavesSite (Text.trimChars link.toList)
  · rw [Link.normalizeChars_of_leavesSite hout] at hc
    exact Text.head?_trimChars hc
  · rw [Bool.not_eq_true] at hout
    obtain ⟨path, suffix, ht, hp, hs⟩ := Link.exists_path_suffix (Text.trimChars link.toList)
    obtain ⟨r, hr, _⟩ := Path.cleanAbsolute_eq_cons path
    rw [Link.normalizeChars_of_site hout ht hp hs, hr, List.cons_append, List.head?_cons] at hc
    obtain rfl := Option.some.inj hc
    decide

end Kept

/-- A tree of some depth that comes back and says what a value says. -/
structure Tells (d : Nat) (t : Tree) (v : Value) : Prop where
  carried : t.Carried d
  restates : t.value.Restates v

structure TellsField (d : Nat) (e : String × Tree) (f : String × Value) : Prop where
  key : e.1 = f.1
  kept : keepsText f.1 ∧ f.1 ≠ "<<"
  value : Tells d e.2 f.2

variable {d : Nat}

theorem tells_text {s : String} (h : keepsText s) :
    Tells d (.text s) (.text s) := ⟨.text h, .text s⟩

theorem tells_bool (b : Bool) : Tells d (.bool b) (.bool b) := ⟨.bool, .bool b⟩

theorem tells_sequence {toTree : α → Tree} {toValue : α → Value} {l : List α}
    (h : ∀ a ∈ l, Tells d (toTree a) (toValue a)) :
    Tells (d + 1) (.sequence (l.map toTree)) (.list (l.map toValue)) := by
  refine ⟨.sequence (List.forall_mem_map.mpr fun a ha => (h a ha).carried), ?_⟩
  rw [Tree.value, itemValues_eq_map, List.map_map]
  refine .sequence ?_
  rw [List.forall₂_map_left_iff, List.forall₂_map_right_iff, List.forall₂_same]
  exact fun a ha => (h a ha).restates

theorem get?_of_tellsField {entries : List (String × Tree)} {fields : Fields}
    (h : List.Forall₂ (TellsField d) entries fields) :
    Fields.Restates (entryValues entries) fields := by
  intro key
  induction h with
  | nil => exact .none
  | @cons e f entries fields hf _ ih =>
    rw [Fields.given?] at ih ⊢
    rw [entryValues, Fields.get?_cons, Fields.get?_cons, hf.key]
    split
    · rw [Option.filter_some, if_pos (by simp [hf.value.restates.isNull_right])]
      exact .some hf.value.restates
    · exact ih

theorem exists_tellsField {entries : List (String × Tree)} {fields : Fields}
    (h : List.Forall₂ (TellsField d) entries fields) : ∀ e ∈ entries, ∃ f, TellsField d e f := by
  induction h with
  | nil => simp
  | cons hf _ ih => exact List.forall_mem_cons.mpr ⟨⟨_, hf⟩, ih⟩

theorem tells_mapping {entries : List (String × Tree)} {fields : Fields}
    (hplain : (Value.record fields).Plain) (h : List.Forall₂ (TellsField d) entries fields) :
    Tells (d + 1) (.mapping entries) (.record fields) := by
  have hkeys : entries.map Prod.fst = fields.map Prod.fst := by
    rw [← List.forall₂_eq_eq_eq, List.forall₂_map_left_iff, List.forall₂_map_right_iff]
    exact h.imp fun _ _ hf => hf.key
  have hfields := exists_tellsField h
  refine ⟨.mapping ?_ (hkeys ▸ hplain.nodup_keys) ?_, .record (get?_of_tellsField h)⟩
  · intro e he
    obtain ⟨f, hf⟩ := hfields e he
    exact hf.key ▸ hf.kept
  · intro e he
    obtain ⟨f, hf⟩ := hfields e he
    exact hf.value.carried

theorem tellsField_of_name {key : String} {t : Tree} {v : Value} (h : Tells d t v)
    (hkey : '\n' ∉ key.toList ∧ key ≠ "<<") : TellsField d (key, t) (key, v) := by
  refine ⟨rfl, ⟨?_, hkey.2⟩, h⟩
  by_cases hstyle : styleOf key = .literal
  · exact absurd (newLine_mem_of_literal hstyle) hkey.1
  · simp [keepsText, hstyle]

theorem tellsField_unlessEmpty {key s : String} (h : s ≠ "" → keepsText s)
    (hkey : '\n' ∉ key.toList ∧ key ≠ "<<") :
    List.Forall₂ (TellsField d) (unlessEmpty key s) (DocSite.unlessEmpty key s) := by
  by_cases hs : s = ""
  · simp [unlessEmpty, DocSite.unlessEmpty, hs]
  · simpa [unlessEmpty, DocSite.unlessEmpty, hs] using tellsField_of_name (tells_text (h hs)) hkey

theorem tellsField_whenSome {key : String} {toTree : α → Tree} {toValue : α → Value} {o : Option α}
    (h : ∀ a ∈ o, Tells d (toTree a) (toValue a)) (hkey : '\n' ∉ key.toList ∧ key ≠ "<<") :
    List.Forall₂ (TellsField d) (o.map fun a => (key, toTree a)).toList
      (whenSome key (o.map toValue)) := by
  cases o with
  | none => exact .nil
  | some a => exact .cons (tellsField_of_name (h a rfl) hkey) .nil

theorem tells_list {toTree : α → Tree} {toValue : α → Value} {l : Option (List α)} (hl : l.isSome)
    (h : ∀ m ∈ l, ∀ a ∈ m, Tells d (toTree a) (toValue a)) :
    Tells (d + 1) (listTree toTree l) (listOrNull toValue l) := by
  obtain ⟨l, rfl⟩ := Option.isSome_iff_exists.mp hl
  exact tells_sequence (h l rfl)

end Yaml

def TextMap.Kept (m : TextMap) : Prop :=
  ∀ e ∈ m.entries, (keepsText e.1 ∧ e.1 ≠ "<<") ∧ keepsText e.2

structure Site.TextsKept (site : Site) : Prop where
  attributes : ∀ l ∈ site.head, ∀ tag ∈ l, ∀ m ∈ tag.attributes, m.Kept
  options : ∀ search ∈ site.theme.search, search.options.Kept

structure Site.Given (site : Site) : Prop where
  head : site.head.isSome
  attributes : ∀ l ∈ site.head, ∀ tag ∈ l, tag.attributes.isSome
  nav : site.theme.nav.isSome
  sidebar : site.theme.sidebar.isSome
  socialLinks : site.theme.socialLinks.isSome

section Parts

variable {d : Nat}

theorem TextMap.tells_toTree {m : TextMap} (h : m.Kept) : Tells (d + 1) m.toTree m.toValue := by
  have hperm := Text.perm_sortBy (fun a b => naturalBefore a.1 b.1) m.entries
  have hkeys := m.plain_toValue.nodup_keys
  rw [TextMap.toTree]
  generalize Text.sortBy (fun a b => naturalBefore a.1 b.1) m.entries = sorted at hperm
  have hkept : ∀ e ∈ sorted, (keepsText e.1 ∧ e.1 ≠ "<<") ∧ keepsText e.2 := fun e he =>
    h e (hperm.mem_iff.mp he)
  refine ⟨.mapping (List.forall_mem_map.mpr fun e he => (hkept e he).1) ?_
    (List.forall_mem_map.mpr fun e he => .text (hkept e he).2), ?_⟩
  · rw [List.map_map] at hkeys ⊢
    exact (hperm.map _).nodup_iff.mpr hkeys
  · rw [Tree.value, entryValues_eq_map, List.map_map]
    refine .record fun key => ?_
    have hget : Fields.get? (sorted.map fun e => (e.1, Value.text e.2)) key =
        (m.get? key).map .text := by
      rw [← m.get?_map_text]
      exact Fields.get?_of_perm hkeys (hperm.map _) key
    rw [Fields.given?, m.get?_map_text]
    refine (congrArg (Option.Rel _ · _) hget).mpr ?_
    cases m.get? key with
    | none => exact .none
    | some s => exact .some (.text s)

theorem HeadTag.tells_toTree {tag : HeadTag} (h : tag.WellFormed) (hgiven : tag.attributes.isSome)
    (hkept : ∀ m ∈ tag.attributes, m.Kept) : Tells (d + 2) tag.toTree tag.toValue := by
  obtain ⟨m, hm⟩ := Option.isSome_iff_exists.mp hgiven
  refine tells_mapping tag.plain_toValue (.cons ?_ (.cons ?_ .nil))
  · exact tellsField_of_name (tells_text (keepsText_of_trim h.tagName.2)) (by decide)
  · rw [hm]
    exact tellsField_of_name (TextMap.tells_toTree (hkept m hm)) (by decide)

theorem NavItem.toTree_mk (text link : String) (items : List NavItem) :
    NavItem.toTree ⟨text, link, items⟩ =
      .mapping (("text", .text text) :: Yaml.unlessEmpty "link" link ++
        if items.isEmpty then [] else [("items", .sequence (items.map NavItem.toTree))]) := by
  have htrees : NavItem.toTrees items = items.map NavItem.toTree := by
    induction items with
    | nil => rfl
    | cons a r ih => rw [NavItem.toTrees, ih, List.map_cons]
  rw [NavItem.toTree, htrees]

theorem NavItem.tells_toTree {item : NavItem} {l : List NavItem} {k : Nat} (hmem : item ∈ l)
    (h : ∀ below : NavItem, below.Within l → below.WellFormed) (hlevels : item.levels ≤ k + 1) :
    Tells (2 * k + 1) item.toTree item.toValue := by
  induction item generalizing l k with
  | mk text link items ih =>
    have hself := h _ (.top hmem)
    have hplain := NavItem.plain_toValue ⟨text, link, items⟩
    rw [NavItem.toValue_mk] at hplain ⊢
    rw [NavItem.toTree_mk]
    refine tells_mapping hplain (List.rel_append (.cons ?_ ?_) ?_)
    · exact tellsField_of_name (tells_text (keepsText_of_trim hself.text.2)) (by decide)
    · exact tellsField_unlessEmpty (fun hlink => keepsText_of_isNormal (hself.link hlink))
        (by decide)
    · cases items with
      | nil => exact .nil
      | cons a r =>
        obtain ⟨_, hk⟩ := NavItem.levels_below hlevels List.mem_cons_self
        obtain ⟨k, rfl⟩ := Nat.exists_eq_succ_of_ne_zero hk
        have hitems : Tells (2 * (k + 1)) (.sequence ((a :: r).map NavItem.toTree))
            (.list ((a :: r).map NavItem.toValue)) := tells_sequence fun item hitem =>
          ih item hitem hitem (fun below hbelow => h below (.inside hmem hbelow))
            (NavItem.levels_below hlevels hitem).1
        exact .cons (tellsField_of_name hitems (by decide)) .nil

theorem SidebarItem.tells_toTree {item : SidebarItem} (h : item.WellFormed) :
    Tells (d + 1) item.toTree item.toValue := by
  refine tells_mapping item.plain_toValue (.cons ?_ (.cons ?_ .nil))
  · exact tellsField_of_name (tells_text (keepsText_of_trim h.text.2)) (by decide)
  · exact tellsField_of_name (tells_text (keepsText_of_isNormal h.link)) (by decide)

theorem SidebarGroup.tells_toTree {group : SidebarGroup} (h : group.WellFormed) :
    Tells (d + 3) group.toTree group.toValue := by
  refine tells_mapping group.plain_toValue
    (List.rel_append (List.rel_append (.cons ?_ ?_) ?_) ?_)
  · exact tellsField_of_name (tells_text (keepsText_of_trim h.text.2)) (by decide)
  · exact tellsField_unlessEmpty (fun hlink => keepsText_of_isNormal (h.link hlink)) (by decide)
  · exact tellsField_whenSome (fun b _ => tells_bool b) (by decide)
  · cases group.items.isEmpty with
    | true => exact .nil
    | false =>
      exact .cons (tellsField_of_name (tells_sequence fun item hitem =>
        SidebarItem.tells_toTree (h.items item hitem)) (by decide)) .nil

theorem SocialLink.tells_toTree {link : SocialLink} (h : link.WellFormed) :
    Tells (d + 1) link.toTree link.toValue := by
  have hicon : ∀ s ∈ knownIcons, Text.trim s = s := by decide
  have hlink : Text.trim link.link = link.link := (Link.isAbsoluteUrl_iff.mp h.link).2.1
  refine tells_mapping link.plain_toValue (.cons ?_ (.cons ?_ .nil))
  · exact tellsField_of_name (tells_text (keepsText_of_trim (hicon _ h.icon))) (by decide)
  · exact tellsField_of_name (tells_text (keepsText_of_trim hlink)) (by decide)

theorem Search.tells_toTree {search : Search} (h : search.WellFormed)
    (hkept : search.options.Kept) :
    Tells (d + 2) search.toTree search.toValue := by
  have hprovider : ∀ s ∈ knownProviders, Text.trim s = s := by decide
  refine tells_mapping search.plain_toValue (.cons ?_ ?_)
  · exact tellsField_of_name (tells_text (keepsText_of_trim (hprovider _ h.provider))) (by decide)
  · cases search.options.isEmpty with
    | true => exact .nil
    | false => exact .cons (tellsField_of_name (TextMap.tells_toTree hkept) (by decide)) .nil

theorem Footer.tells_toTree {footer : Footer} (h : footer.WellFormed) :
    Tells (d + 1) footer.toTree footer.toValue :=
  tells_mapping footer.plain_toValue (List.rel_append
    (tellsField_unlessEmpty (fun _ => keepsText_of_trim h.message) (by decide))
    (tellsField_unlessEmpty (fun _ => keepsText_of_trim h.copyright) (by decide)))

theorem LastUpdated.tells_toTree {stamp : LastUpdated} (h : stamp.WellFormed) :
    Tells (d + 2) stamp.toTree stamp.toValue := by
  have hstyle : ∀ s ∈ knownStyles, Text.trim s = s := by decide
  have hstyles : Tells (d + 1)
      (.mapping [("dateStyle", .text stamp.dateStyle), ("timeStyle", .text stamp.timeStyle)])
      (.record [("dateStyle", .text stamp.dateStyle), ("timeStyle", .text stamp.timeStyle)]) := by
    refine tells_mapping (.record (by simp) (by simp)) (.cons ?_ (.cons ?_ .nil))
    · exact tellsField_of_name (tells_text (keepsText_of_trim (hstyle _ h.dateStyle))) (by decide)
    · exact tellsField_of_name (tells_text (keepsText_of_trim (hstyle _ h.timeStyle))) (by decide)
  refine tells_mapping stamp.plain_toValue (.cons ?_ (.cons ?_ .nil))
  · exact tellsField_of_name (tells_text (keepsText_of_trim h.text.2)) (by decide)
  · exact tellsField_of_name hstyles (by decide)

theorem Theme.tells_toTree {theme : Theme} {k : Nat} (h : theme.WellFormed)
    (hlists : theme.nav.isSome ∧ theme.sidebar.isSome ∧ theme.socialLinks.isSome)
    (hoptions : ∀ search ∈ theme.search, search.options.Kept)
    (hlevels : NavItem.levelsOf (theme.nav.getD []) ≤ k + 2) :
    Tells (2 * k + 5) theme.toTree (.record theme.toFields) := by
  refine tells_mapping theme.plain_toFields (List.rel_append (List.rel_append (List.rel_append
    (List.rel_append ?_ (.cons ?_ (.cons ?_ (.cons ?_ .nil)))) ?_) ?_) ?_)
  · exact tellsField_unlessEmpty (fun hlogo => keepsText_of_isNormal (h.logo hlogo)) (by decide)
  · refine tellsField_of_name (tells_list hlists.1 fun l hl item hitem => ?_) (by decide)
    rw [Option.mem_def.mp hl] at hlevels
    exact NavItem.tells_toTree (k := k + 1) hitem (h.nav l hl)
      (Nat.le_trans (NavItem.levels_le_levelsOf hitem) hlevels)
  · exact tellsField_of_name (tells_list hlists.2.1 fun l hl group hgroup =>
      SidebarGroup.tells_toTree (h.sidebar l hl group hgroup)) (by decide)
  · exact tellsField_of_name (tells_list hlists.2.2 fun l hl link hlink =>
      SocialLink.tells_toTree (h.socialLinks l hl link hlink)) (by decide)
  · exact tellsField_whenSome (fun search hs => Search.tells_toTree (h.search search hs)
      (hoptions search hs)) (by decide)
  · exact tellsField_whenSome (fun footer hf => Footer.tells_toTree (h.footer footer hf))
      (by decide)
  · exact tellsField_whenSome (fun stamp hs => LastUpdated.tells_toTree (h.lastUpdated stamp hs))
      (by decide)

theorem Site.tells_toTree {site : Site} {k : Nat} (h : site.WellFormed) (hgiven : site.Given)
    (hkept : site.TextsKept) (hlevels : site.menuLevels ≤ k + 2) :
    Tells (2 * k + 6) site.toTree (.record site.toFields) := by
  refine tells_mapping site.plain_toFields (List.rel_append (List.rel_append
    (.cons ?_ (.cons ?_ .nil)) ?_) (.cons ?_ (.cons ?_ .nil)))
  · exact tellsField_of_name (tells_text (keepsText_of_trim h.title.2)) (by decide)
  · exact tellsField_of_name (tells_text (keepsText_of_trim h.description.2)) (by decide)
  · exact tellsField_unlessEmpty (fun _ => keepsText_of_trim h.lang.2) (by decide)
  · refine tellsField_of_name (tells_list hgiven.head fun l hl tag htag => ?_) (by decide)
    exact HeadTag.tells_toTree (h.head l hl tag htag) (hgiven.attributes l hl tag htag)
      (hkept.attributes l hl tag htag)
  · exact tellsField_of_name (Theme.tells_toTree h.theme
      ⟨hgiven.nav, hgiven.sidebar, hgiven.socialLinks⟩ hkept.options hlevels) (by decide)

end Parts

section Filled

def HeadTag.filled (tag : HeadTag) : HeadTag :=
  { tag with attributes := some (tag.attributes.getD .empty) }

def Site.filled (site : Site) : Site :=
  { site with
    head := some ((site.head.getD []).map HeadTag.filled)
    theme := { site.theme with
      nav := some (site.theme.nav.getD [])
      sidebar := some (site.theme.sidebar.getD [])
      socialLinks := some (site.theme.socialLinks.getD []) } }

theorem HeadTag.filled_eq_self_iff {tag : HeadTag} : tag.filled = tag ↔ tag.attributes.isSome := by
  obtain ⟨name, attributes⟩ := tag
  cases attributes <;> simp [HeadTag.filled]

theorem some_getD_eq_self_iff {o : Option (List α)} : some (o.getD []) = o ↔ o.isSome := by
  cases o <;> simp

theorem map_filled_eq_self_iff {l : List HeadTag} :
    l.map HeadTag.filled = l ↔ ∀ tag ∈ l, tag.attributes.isSome := by
  have hmap := List.map_inj_left (f := HeadTag.filled) (g := id) (l := l)
  rw [List.map_id] at hmap
  simp only [hmap, id, HeadTag.filled_eq_self_iff]

theorem Site.filled_eq_self_iff {site : Site} : site.filled = site ↔ site.Given := by
  obtain ⟨title, description, lang, head, theme⟩ := site
  obtain ⟨logo, nav, sidebar, socialLinks, search, footer, stamp⟩ := theme
  have hhead : some ((head.getD []).map HeadTag.filled) = head ↔
      head.isSome ∧ ∀ l ∈ head, ∀ tag ∈ l, tag.attributes.isSome := by
    cases head with
    | none => simp
    | some l => simp [map_filled_eq_self_iff]
  simp only [Site.filled, Site.mk.injEq, Theme.mk.injEq, hhead, some_getD_eq_self_iff, true_and,
    and_true]
  constructor
  · rintro ⟨⟨hhead, hattributes⟩, hnav, hsidebar, hlinks⟩
    exact ⟨hhead, hattributes, hnav, hsidebar, hlinks⟩
  · intro h
    exact ⟨⟨h.head, h.attributes⟩, h.nav, h.sidebar, h.socialLinks⟩

theorem Site.given_filled (site : Site) : site.filled.Given := by
  refine ⟨rfl, ?_, rfl, rfl, rfl⟩
  rintro _ ⟨⟩ tag htag
  obtain ⟨tag, _, rfl⟩ := List.mem_map.mp htag
  rfl

/-- The tree does not tell what was never given from what is empty. -/
theorem Site.toTree_filled (site : Site) : site.filled.toTree = site.toTree := by
  have hhead : listTree HeadTag.toTree site.filled.head = listTree HeadTag.toTree site.head := by
    simp only [listTree, Site.filled, Option.getD_some, List.map_map]
    rfl
  have htheme : site.filled.theme.toTree = site.theme.toTree := rfl
  rw [Site.toTree, hhead, htheme]
  rfl

theorem forall_mem_some_getD {p : List α → Prop} (hnil : p []) {o : Option (List α)}
    (h : ∀ l ∈ o, p l) : ∀ l ∈ some (o.getD []), p l := by
  cases o with
  | none =>
    rintro _ ⟨⟩
    exact hnil
  | some l => exact h

theorem forall_filled {p : HeadTag → Prop} (hfilled : ∀ tag, p tag → p tag.filled)
    {o : Option (List HeadTag)} (h : ∀ l ∈ o, ∀ tag ∈ l, p tag) :
    ∀ l ∈ some ((o.getD []).map HeadTag.filled), ∀ tag ∈ l, p tag := by
  rintro _ ⟨⟩
  rw [List.forall_mem_map]
  intro tag htag
  exact hfilled tag (forall_mem_some_getD (by simp) h _ rfl tag htag)

theorem HeadTag.forall_attributes_filled {p : TextMap → Prop} (hempty : p .empty) {tag : HeadTag}
    (h : ∀ m ∈ tag.attributes, p m) : ∀ m ∈ tag.filled.attributes, p m := by
  rintro _ ⟨⟩
  cases hattributes : tag.attributes with
  | none => exact hempty
  | some m => exact h m hattributes

theorem Theme.WellFormed.filled {theme : Theme} (h : theme.WellFormed) : WellFormed { theme with
    nav := some (theme.nav.getD [])
    sidebar := some (theme.sidebar.getD [])
    socialLinks := some (theme.socialLinks.getD []) } where
  logo := h.logo
  nav := forall_mem_some_getD (fun item hitem => absurd hitem item.not_within_nil) h.nav
  sidebar := forall_mem_some_getD (by simp) h.sidebar
  sidebarLinks := forall_mem_some_getD .nil h.sidebarLinks
  socialLinks := forall_mem_some_getD (by simp) h.socialLinks
  search := h.search
  footer := h.footer
  lastUpdated := h.lastUpdated

theorem Site.WellFormed.filled {site : Site} (h : site.WellFormed) : site.filled.WellFormed where
  title := h.title
  description := h.description
  lang := h.lang
  head := forall_filled (fun _ htag => ⟨htag.tagName,
    HeadTag.forall_attributes_filled (fun _ _ _ => nofun) htag.assets⟩) h.head
  theme := h.theme.filled

theorem Site.LinksFixed.filled {site : Site} (h : site.LinksFixed) : site.filled.LinksFixed where
  logo := h.logo
  nav := forall_mem_some_getD (fun item hitem => absurd hitem item.not_within_nil) h.nav
  sidebar := forall_mem_some_getD (by simp [sidebarLinks]) h.sidebar
  head := forall_filled (fun _ => HeadTag.forall_attributes_filled fun _ _ _ => nofun) h.head

theorem Site.TextsKept.filled {site : Site} (h : site.TextsKept) : site.filled.TextsKept where
  attributes := forall_filled (fun _ => HeadTag.forall_attributes_filled
    (by simp [TextMap.Kept, TextMap.empty])) h.attributes
  options := h.options

end Filled

end DocSite
