import DocSite.Proofs.Site.Declaration
import DocSite.Proofs.Site.WellFormed

namespace DocSite

structure Site.LinksFixed (site : Site) : Prop where
  logo : site.theme.logo ≠ "" → Link.normalize site.theme.logo = site.theme.logo
  nav : ∀ l ∈ site.theme.nav, ∀ item : NavItem, item.Within l → item.link ≠ "" →
    Link.normalize item.link = item.link
  sidebar : ∀ l ∈ site.theme.sidebar, ∀ link ∈ sidebarLinks l, Link.normalize link = link
  head : ∀ l ∈ site.head, ∀ tag ∈ l, ∀ attributes ∈ tag.attributes,
    ∀ key ∈ Schema.assetAttributes, ∀ value ∈ attributes.get? key, value ≠ "" →
      Link.normalize value = value

theorem rel_map_left_iff {R : Value → α → Prop} {write : α → Value} {o : Option α} :
    Option.Rel R (o.map write) o ↔ ∀ a ∈ o, R (write a) a := by
  cases o <;> simp

theorem rel_listOf_listOrNull_iff {R : Value → α → Prop} {write : α → Value}
    {o : Option (List α)} :
    Option.Rel (Value.ListOf R) ((some (listOrNull write o)).filter fun v => !v.isNull) o ↔
      ∀ l ∈ o, ∀ a ∈ l, R (write a) a := by
  cases o with
  | none => simp [listOrNull, Option.filter_some]
  | some l =>
    simp [listOrNull, Option.filter_some, Value.ListOf, List.forall₂_map_left_iff,
      List.forall₂_same]

section Head

theorem TextMap.get?_map_text (m : TextMap) (key : String) :
    Fields.get? (m.entries.map fun e => (e.1, .text e.2)) key = (m.get? key).map .text :=
  Text.lookup_map (fun _ => Value.text) key m.entries

theorem TextMap.textsOf_toValue_iff {m m' : TextMap} : m.toValue.TextsOf m' ↔ m = m' := by
  have hkey : ∀ key, ((m.get? key).map Value.text).map Value.scalarText? =
      (m.get? key).map some := by
    intro key
    rw [Option.map_map]
    rfl
  simp only [Value.TextsOf, TextMap.toValue, Value.fields?_record, Option.some.injEq,
    exists_eq_left', TextMap.get?_map_text, hkey]
  constructor
  · intro h
    ext1 key
    exact Option.map_injective (fun _ _ => Option.some.inj) (h key)
  · rintro rfl key
    rfl

theorem Schema.normalizeAssets_eq_self_iff {m : TextMap} :
    normalizeAssets m = m ↔ ∀ key ∈ assetAttributes, ∀ value ∈ m.get? key, value ≠ "" →
      Link.normalize value = value := by
  rw [TextMap.ext_iff]
  simp only [normalizeAssets, TextMap.get?_mapValues, Bool.and_eq_true, List.contains_iff_mem,
    bne_iff_ne]
  constructor
  · intro h key hkey value hvalue hne
    have hget := h key
    rw [Option.mem_def.mp hvalue] at hget
    simpa [hkey, hne] using hget
  · intro h key
    cases hget : m.get? key with
    | none => rfl
    | some value =>
      rw [Option.map_some, Option.some.injEq]
      split
      case isTrue hasset => exact h key hasset.1 value hget hasset.2
      case isFalse => rfl

theorem HeadTag.rel_textsOf_iff {attributes texts : Option TextMap} :
    Option.Rel Value.TextsOf
      ((some ((attributes.map TextMap.toValue).getD .null)).filter fun v => !v.isNull) texts ↔
      texts = attributes := by
  cases attributes with
  | none => simp [Option.filter_some]
  | some m =>
    have hnull : m.toValue.isNull = false := rfl
    simp only [Option.map_some, Option.getD_some, Option.filter_some, hnull, Bool.not_false,
      if_true, rel_some_iff, TextMap.textsOf_toValue_iff]
    constructor
    · rintro ⟨_, rfl, rfl⟩
      rfl
    · rintro rfl
      exact ⟨m, rfl, rfl⟩

theorem HeadTag.declaredBy_toValue_iff {tag : HeadTag} (h : tag.WellFormed) :
    HeadTag.DeclaredBy tag.toValue tag ↔
      ∀ attributes ∈ tag.attributes, Schema.normalizeAssets attributes = attributes := by
  have hfields : tag.toValue.fields? = some [("tagName", .text tag.tagName),
      ("attributes", (tag.attributes.map TextMap.toValue).getD .null)] := Value.fields?_record _
  have hparts : HeadTag.DeclaredBy tag.toValue tag ↔
      HeadTag.PartsBy (some (.text tag.tagName))
        (some ((tag.attributes.map TextMap.toValue).getD .null)) tag := by
    constructor
    · rintro ⟨name, attributes, hform, hparts⟩
      cases hform with
      | mapping hf =>
        obtain rfl := Option.some.inj (hfields.symm.trans hf)
        exact hparts
      | single hi => cases hi
      | pair hi => cases hi
    · intro hparts
      exact ⟨_, _, .mapping hfields, hparts⟩
  rw [hparts]
  obtain ⟨tagName, attributes⟩ := tag
  constructor
  · rintro ⟨_, _, htexts⟩
    intro m hm
    obtain ⟨texts, rfl, rfl⟩ := Option.map_eq_some_iff.mp hm
    have heq := rel_textsOf_iff.mp htexts
    rw [Option.map_some, Option.some.injEq] at heq
    rw [← heq, ← heq]
  · intro hassets
    have hmap : attributes.map Schema.normalizeAssets = attributes := by
      cases attributes with
      | none => rfl
      | some m => exact congrArg some (hassets m rfl)
    have hself := HeadTag.PartsBy.mk (rfl : some (Value.text tagName) = _) h.tagName.not_blank
      (rel_textsOf_iff.mpr (rfl : attributes = attributes))
    rwa [h.tagName.2, hmap] at hself

end Head

section Nav

theorem NavItem.within_iff {item : NavItem} {l : List NavItem} :
    item.Within l ↔ ∃ top ∈ l, item = top ∨ item.Within top.items := by
  constructor
  · intro h
    cases h with
    | top hi => exact ⟨item, hi, .inl rfl⟩
    | inside hm hb => exact ⟨_, hm, .inr hb⟩
  · rintro ⟨top, ht, rfl | hb⟩
    · exact .top ht
    · exact .inside ht hb

theorem NavItem.not_within_nil (item : NavItem) : ¬item.Within [] := by
  intro h
  obtain ⟨_, ht, _⟩ := within_iff.mp h
  cases ht

theorem NavItem.within_singleton_iff {item top : NavItem} :
    item.Within [top] ↔ item = top ∨ item.Within top.items := by
  rw [within_iff]
  simp only [List.mem_singleton, exists_eq_left]

theorem NavItem.Within.of_mem {item top : NavItem} {l : List NavItem} (h : item.Within [top])
    (ht : top ∈ l) : item.Within l :=
  within_iff.mpr ⟨top, ht, within_singleton_iff.mp h⟩

theorem NavItem.declaredBy_link_iff {text link : String} (ht : Text.IsLabel text)
    (hl : Link.IsNormal link) :
    NavItem.DeclaredBy (NavItem.toValue ⟨text, link, []⟩) ⟨text, link, []⟩ ↔
      Link.normalize link = link := by
  have hne := hl.ne_empty
  have hfields : (NavItem.toValue ⟨text, link, []⟩).fields? =
      some [("text", .text text), ("link", .text link)] := by
    simp [NavItem.toValue_mk, unlessEmpty, hne]
  constructor
  · intro hd
    cases hd with
    | @link _ _ _ raw hf _ hlink _ =>
      obtain rfl := Option.some.inj (hfields.symm.trans hf)
      have heq : Link.normalize raw = raw := by simpa using hlink.1
      rw [heq, heq]
    | menu => exact absurd rfl hne
  · intro hlink
    have hself := NavItem.DeclaredBy.link hfields ⟨by simp, ht.not_blank⟩ ⟨by simp, hl.not_blank⟩
      (by simp [Fields.given?])
    rwa [ht.2, hlink] at hself

theorem NavItem.declaredBy_menu_iff {text : String} {items : List NavItem}
    (ht : Text.IsLabel text) (hne : items ≠ []) :
    NavItem.DeclaredBy (NavItem.toValue ⟨text, "", items⟩) ⟨text, "", items⟩ ↔
      ∀ item ∈ items, NavItem.DeclaredBy item.toValue item := by
  have hfields : (NavItem.toValue ⟨text, "", items⟩).fields? =
      some [("text", .text text), ("items", .list (items.map NavItem.toValue))] := by
    simp [NavItem.toValue_mk, unlessEmpty, hne]
  have hall : List.Forall₂ NavItem.DeclaredBy (items.map NavItem.toValue) items ↔
      ∀ item ∈ items, NavItem.DeclaredBy item.toValue item := by
    rw [List.forall₂_map_left_iff, List.forall₂_same]
  have hbelow : Fields.given? [("text", .text text),
      ("items", .list (items.map NavItem.toValue))] "items" =
      some (.list (items.map NavItem.toValue)) := by
    simp [Fields.given?, Option.filter_some]
  rw [← hall]
  constructor
  · intro hd
    generalize hlink : "" = link at hd
    cases hd with
    | link => exact absurd rfl hne
    | menu hf _ _ hi hvalues hitems _ =>
      obtain rfl := Option.some.inj (hfields.symm.trans hf)
      obtain rfl := Option.some.inj (hbelow.symm.trans hi)
      obtain rfl := Option.some.inj hvalues
      exact hitems
  · intro hitems
    have hself := NavItem.DeclaredBy.menu hfields ⟨by simp, ht.not_blank⟩
      (by simp [Fields.given?]) hbelow rfl hitems hne
    rwa [ht.2] at hself

/-- An entry declares itself exactly when all links from it downwards are their own normal forms. -/
theorem NavItem.declaredBy_toValue_iff {item : NavItem}
    (h : ∀ below : NavItem, below.Within [item] → below.WellFormed) :
    NavItem.DeclaredBy item.toValue item ↔
      ∀ below : NavItem, below.Within [item] → below.link ≠ "" →
        Link.normalize below.link = below.link := by
  induction item with
  | mk text link items ih =>
    have hself := h _ (.top List.mem_cons_self)
    rcases hself.form with ⟨hlink, hnil⟩ | ⟨hne, hlink⟩
    · obtain rfl : items = [] := by simpa using hnil
      rw [declaredBy_link_iff hself.text (hself.link hlink)]
      simp only [within_singleton_iff, not_within_nil, or_false, forall_eq]
      exact ⟨fun hfixed _ => hfixed, fun hfixed => hfixed hlink⟩
    · obtain rfl : link = "" := by simpa using hlink
      have hbelow : ∀ item ∈ items, ∀ below : NavItem, below.Within [item] →
          below.Within [⟨text, "", items⟩] :=
        fun item hitem below hb => within_singleton_iff.mpr (.inr (hb.of_mem hitem))
      have ih : ∀ item ∈ items, NavItem.DeclaredBy item.toValue item ↔
          ∀ below : NavItem, below.Within [item] → below.link ≠ "" →
            Link.normalize below.link = below.link :=
        fun item hitem => ih item hitem fun below hb => h below (hbelow item hitem below hb)
      rw [declaredBy_menu_iff hself.text hne]
      constructor
      · intro hall below hb hlink
        rcases within_singleton_iff.mp hb with rfl | hb
        · exact absurd rfl hlink
        · obtain ⟨top, ht, hb⟩ := within_iff.mp hb
          exact (ih top ht).mp (hall top ht) below (within_singleton_iff.mpr hb) hlink
      · intro hfixed item hitem
        exact (ih item hitem).mpr fun below hb => hfixed below (hbelow item hitem below hb)

theorem NavItem.forall_declaredBy_toValue_iff {l : List NavItem}
    (h : ∀ item : NavItem, item.Within l → item.WellFormed) :
    (∀ top ∈ l, NavItem.DeclaredBy top.toValue top) ↔
      ∀ item : NavItem, item.Within l → item.link ≠ "" → Link.normalize item.link = item.link := by
  have htop : ∀ top ∈ l, NavItem.DeclaredBy top.toValue top ↔
      ∀ item : NavItem, item.Within [top] → item.link ≠ "" →
        Link.normalize item.link = item.link :=
    fun top ht => declaredBy_toValue_iff fun item hi => h item (hi.of_mem ht)
  constructor
  · intro hall item hi
    obtain ⟨top, ht, hi⟩ := within_iff.mp hi
    exact (htop top ht).mp (hall top ht) item (within_singleton_iff.mpr hi)
  · intro hfixed top ht
    exact (htop top ht).mpr fun item hi => hfixed item (hi.of_mem ht)

end Nav

section Sidebar

theorem SidebarItem.declaredBy_toValue_iff {item : SidebarItem} (h : item.WellFormed) :
    SidebarItem.DeclaredBy item.toValue item ↔ Link.normalize item.link = item.link := by
  obtain ⟨text, link⟩ := item
  have hfields : (SidebarItem.toValue ⟨text, link⟩).fields? =
      some [("text", .text text), ("link", .text link)] := Value.fields?_record _
  constructor
  · intro hd
    cases hd with
    | @mk _ _ raw hf _ hlink =>
      obtain rfl := Option.some.inj (hfields.symm.trans hf)
      have heq : Link.normalize raw = raw := by simpa using hlink.1
      rw [heq, heq]
  · intro hlink
    have hself := SidebarItem.DeclaredBy.mk hfields ⟨by simp, h.text.not_blank⟩
      ⟨by simp, h.link.not_blank⟩
    rwa [h.text.2, hlink] at hself

theorem SidebarGroup.declaredBy_link_iff {text link : String} (ht : Text.IsLabel text)
    (hl : Link.IsNormal link) :
    SidebarGroup.DeclaredBy (SidebarGroup.toValue ⟨text, link, none, []⟩) ⟨text, link, none, []⟩ ↔
      Link.normalize link = link := by
  have hne := hl.ne_empty
  have hfields : (SidebarGroup.toValue ⟨text, link, none, []⟩).fields? =
      some [("text", .text text), ("link", .text link)] := by
    simp [SidebarGroup.toValue, unlessEmpty, whenSome, hne]
  constructor
  · intro hd
    cases hd with
    | @link _ _ raw _ hf _ hlink _ _ =>
      obtain rfl := Option.some.inj (hfields.symm.trans hf)
      have heq : Link.normalize raw = raw := by simpa using hlink.1
      rw [heq, heq]
    | group => exact absurd rfl hne
  · intro hlink
    have hmark : Fields.given? [("text", .text text), ("link", .text link)] "collapsed" =
        (none : Option Bool).map .bool := by
      simp [Fields.given?]
    have hself := SidebarGroup.DeclaredBy.link hfields ⟨by simp, ht.not_blank⟩
      ⟨by simp, hl.not_blank⟩ (by simp [Fields.given?]) hmark
    rwa [ht.2, hlink] at hself

theorem SidebarGroup.declaredBy_group_iff {text : String} {collapsed : Option Bool}
    {items : List SidebarItem} (ht : Text.IsLabel text) (hne : items ≠ []) :
    SidebarGroup.DeclaredBy (SidebarGroup.toValue ⟨text, "", collapsed, items⟩)
        ⟨text, "", collapsed, items⟩ ↔
      ∀ item ∈ items, SidebarItem.DeclaredBy item.toValue item := by
  let fields : Fields := ("text", .text text) :: whenSome "collapsed" (collapsed.map .bool) ++
    [("items", .list (items.map SidebarItem.toValue))]
  have hfields : (SidebarGroup.toValue ⟨text, "", collapsed, items⟩).fields? = some fields := by
    simp [SidebarGroup.toValue, unlessEmpty, hne, fields]
  have hitems : fields.given? "items" = some (.list (items.map SidebarItem.toValue)) := by
    simp [fields, Fields.given?, Option.filter_some]
  have hmark : fields.given? "collapsed" = collapsed.map .bool := by
    cases collapsed <;> simp [fields, Fields.given?, Option.filter_some]
  have hall : (Value.list (items.map SidebarItem.toValue)).ListOf SidebarItem.DeclaredBy items ↔
      ∀ item ∈ items, SidebarItem.DeclaredBy item.toValue item := by
    simp [Value.ListOf, List.forall₂_map_left_iff, List.forall₂_same]
  rw [← hall]
  constructor
  · intro hd
    generalize hlink : "" = link at hd
    cases hd with
    | link => exact absurd rfl hne
    | group hf _ _ hi hl _ _ =>
      obtain rfl := Option.some.inj (hfields.symm.trans hf)
      obtain rfl := Option.some.inj (hitems.symm.trans hi)
      exact hl
  · intro hl
    have hself := SidebarGroup.DeclaredBy.group hfields ⟨by simp [fields], ht.not_blank⟩
      (by simp [fields, Fields.given?]) hitems hl hne hmark
    rwa [ht.2] at hself

theorem SidebarGroup.declaredBy_toValue_iff {group : SidebarGroup} (h : group.WellFormed) :
    SidebarGroup.DeclaredBy group.toValue group ↔
      ∀ link ∈ group.links, Link.normalize link = link := by
  obtain ⟨text, link, collapsed, items⟩ := group
  rcases h.form with ⟨hlink, hnil⟩ | ⟨hne, hlink⟩
  · obtain rfl : items = [] := by simpa using hnil
    obtain rfl : collapsed = none := by
      by_contra hc
      exact h.collapsed hc rfl
    rw [declaredBy_link_iff h.text (h.link hlink)]
    simp [SidebarGroup.links, show link ≠ "" from hlink]
  · obtain rfl : link = "" := by simpa using hlink
    have hitems : ∀ item ∈ items, SidebarItem.DeclaredBy item.toValue item ↔
        Link.normalize item.link = item.link :=
      fun item hitem => SidebarItem.declaredBy_toValue_iff (h.items item hitem)
    rw [declaredBy_group_iff h.text hne, forall₂_congr hitems]
    simp [SidebarGroup.links]

theorem SidebarGroup.forall_declaredBy_toValue_iff {l : List SidebarGroup}
    (h : ∀ group ∈ l, group.WellFormed) :
    (∀ group ∈ l, SidebarGroup.DeclaredBy group.toValue group) ↔
      ∀ link ∈ sidebarLinks l, Link.normalize link = link := by
  rw [forall₂_congr fun group hg => declaredBy_toValue_iff (h group hg)]
  simp only [sidebarLinks, List.mem_flatMap]
  constructor
  · rintro hall link ⟨group, hg, hl⟩
    exact hall group hg link hl
  · intro hall group hg link hl
    exact hall link ⟨group, hg, hl⟩

end Sidebar

section Smaller

theorem SocialLink.declaredBy_toValue {link : SocialLink} (h : link.WellFormed) :
    SocialLink.DeclaredBy link.toValue link :=
  .mk (Value.fields?_record _) (by simp) h.icon (by simp) h.link

theorem Search.declaredBy_toValue {search : Search} (h : search.WellFormed) :
    Search.DeclaredBy search.toValue search := by
  obtain ⟨provider, options⟩ := search
  cases he : options.isEmpty with
  | true =>
    obtain rfl := TextMap.isEmpty_iff.mp he
    have hfields : (Search.toValue ⟨provider, .empty⟩).fields? =
        some [("provider", .text provider)] := Value.fields?_record _
    exact Search.DeclaredBy.mk hfields (by simp) h.provider
      (by simp [Fields.given?] : Option.Rel _ _ none) h.options
  | false =>
    have hfields : (Search.toValue ⟨provider, options⟩).fields? =
        some [("provider", .text provider), ("options", options.toValue)] := by
      simp [Search.toValue, he]
    have hoptions : Fields.given? [("provider", .text provider), ("options", options.toValue)]
        "options" = some options.toValue := by
      simp [Fields.given?, TextMap.toValue, Option.filter_some]
    have hrel : Option.Rel Value.TextsOf (Fields.given? [("provider", .text provider),
        ("options", options.toValue)] "options") (some options) := by
      rw [hoptions]
      exact .some (TextMap.textsOf_toValue_iff.mpr rfl)
    exact Search.DeclaredBy.mk hfields (by simp) h.provider hrel h.options

theorem trim_getD_unlessEmpty {s : String} (h : Text.trim s = s) :
    ((if s = "" then none else some s).map Text.trim).getD "" = s := by
  by_cases hs : s = "" <;> simp [hs, h]

theorem Footer.declaredBy_toValue {footer : Footer} (h : footer.WellFormed) :
    Footer.DeclaredBy footer.toValue footer := by
  obtain ⟨message, copyright⟩ := footer
  have hfields : (Footer.toValue ⟨message, copyright⟩).fields? =
      some (unlessEmpty "message" message ++ unlessEmpty "copyright" copyright) :=
    Value.fields?_record _
  have hmessage : Fields.given? (unlessEmpty "message" message ++
      unlessEmpty "copyright" copyright) "message" =
      (if message = "" then none else some message).map .text := by
    by_cases hs : message = "" <;> simp [Fields.given?, Option.filter_some, hs]
  have hcopyright : Fields.given? (unlessEmpty "message" message ++
      unlessEmpty "copyright" copyright) "copyright" =
      (if copyright = "" then none else some copyright).map .text := by
    by_cases hs : copyright = "" <;> simp [Fields.given?, Option.filter_some, hs]
  have hself := Footer.DeclaredBy.mk hfields hmessage hcopyright
  rwa [trim_getD_unlessEmpty h.message, trim_getD_unlessEmpty h.copyright] at hself

theorem Fields.styleBy_of_get? {fields : Fields} {key standard s : String}
    (h : fields.get? key = some (.text s)) (hs : s ∈ knownStyles) :
    fields.StyleBy key standard s :=
  ⟨some s, by simp [Fields.given?, h, Option.filter_some], by simpa using hs, rfl⟩

theorem LastUpdated.declaredBy_toValue {stamp : LastUpdated} (h : stamp.WellFormed) :
    LastUpdated.DeclaredBy stamp.toValue (some stamp) := by
  obtain ⟨text, dateStyle, timeStyle⟩ := stamp
  let format : Fields := [("dateStyle", .text dateStyle), ("timeStyle", .text timeStyle)]
  have hfields : (LastUpdated.toValue ⟨text, dateStyle, timeStyle⟩).fields? =
      some [("text", .text text), ("formatOptions", .record format)] := Value.fields?_record _
  have htext : Fields.given? [("text", .text text), ("formatOptions", .record format)] "text" =
      (some text).map .text := by
    simp [Fields.given?, Option.filter_some]
  have hformat : Option.Rel (fun w f => Value.fields? w = some f) (Fields.given?
      [("text", .text text), ("formatOptions", .record format)] "formatOptions") (some format) := by
    simp [Fields.given?, Option.filter_some]
  have hself := LastUpdated.DeclaredBy.described hfields htext hformat
    (Fields.styleBy_of_get? (by simp [format]) h.dateStyle)
    (Fields.styleBy_of_get? (by simp [format]) h.timeStyle)
  have hkept : Schema.textOr LastUpdated.default.text ((some text).map Text.trim) = text := by
    simp [Schema.textOr, h.text.1, h.text.2]
  rwa [hkept] at hself

end Smaller

section Theme

variable {theme : Theme}

theorem Theme.logoBy_toFields_iff (h : theme.WellFormed) :
    Theme.LogoBy theme.toFields theme.logo ↔
      (theme.logo ≠ "" → Link.normalize theme.logo = theme.logo) := by
  have hget : theme.toFields.get? "logo" =
      if theme.logo ≠ "" then some (.text theme.logo) else none := by
    simp [Theme.toFields]
  constructor
  · intro hlogo hne
    rw [if_pos hne] at hget
    generalize theme.logo = logo at hlogo hne hget
    cases hlogo with
    | absent => exact absurd rfl hne
    | blank => exact absurd rfl hne
    | @link raw hraw =>
      have heq : Link.normalize raw = raw := by simpa using hget.symm.trans hraw.1
      rw [heq, heq]
  · intro hfixed
    by_cases hne : theme.logo = ""
    · rw [if_neg (by simpa using hne)] at hget
      rw [hne]
      exact .absent (by rw [Fields.given?, hget, Option.filter_none])
    · rw [if_pos hne] at hget
      have hself := Theme.LogoBy.link ⟨hget, (h.logo hne).not_blank⟩
      rwa [hfixed hne] at hself

theorem Theme.rel_nav_toFields_iff (h : theme.WellFormed) :
    Option.Rel (Value.ListOf NavItem.DeclaredBy) (theme.toFields.given? "nav") theme.nav ↔
      ∀ l ∈ theme.nav, ∀ item : NavItem, item.Within l → item.link ≠ "" →
        Link.normalize item.link = item.link := by
  rw [← forall₂_congr fun l hl => NavItem.forall_declaredBy_toValue_iff (h.nav l hl),
    ← rel_listOf_listOrNull_iff]
  simp [Theme.toFields, Fields.given?]

theorem Theme.rel_sidebar_toFields_iff (h : theme.WellFormed) :
    Option.Rel (Value.ListOf SidebarGroup.DeclaredBy) (theme.toFields.given? "sidebar")
        theme.sidebar ↔
      ∀ l ∈ theme.sidebar, ∀ link ∈ DocSite.sidebarLinks l, Link.normalize link = link := by
  rw [← forall₂_congr fun l hl => SidebarGroup.forall_declaredBy_toValue_iff (h.sidebar l hl),
    ← rel_listOf_listOrNull_iff]
  simp [Theme.toFields, Fields.given?]

theorem Theme.rel_socialLinks_toFields (h : theme.WellFormed) :
    Option.Rel (Value.ListOf SocialLink.DeclaredBy) (theme.toFields.given? "socialLinks")
      theme.socialLinks := by
  have hself := rel_listOf_listOrNull_iff.mpr fun l hl link hlink =>
    SocialLink.declaredBy_toValue (h.socialLinks l hl link hlink)
  simpa [Theme.toFields, Fields.given?] using hself

theorem Theme.declaredBy_toFields_iff (h : theme.WellFormed) :
    Theme.DeclaredBy theme.toFields theme ↔
      (theme.logo ≠ "" → Link.normalize theme.logo = theme.logo) ∧
        (∀ l ∈ theme.nav, ∀ item : NavItem, item.Within l → item.link ≠ "" →
          Link.normalize item.link = item.link) ∧
        ∀ l ∈ theme.sidebar, ∀ link ∈ sidebarLinks l, Link.normalize link = link := by
  rw [← rel_nav_toFields_iff h, ← rel_sidebar_toFields_iff h, ← logoBy_toFields_iff h]
  constructor
  · intro hd
    exact ⟨hd.logo, hd.nav, hd.sidebar⟩
  · rintro ⟨hlogo, hnav, hsidebar⟩
    refine ⟨hlogo, hnav, hsidebar, rel_socialLinks_toFields h, ?_, ?_, ?_⟩
    · rw [theme.given?_search_toFields, rel_map_left_iff]
      exact fun search hs => Search.declaredBy_toValue (h.search search hs)
    · rw [theme.given?_footer_toFields, rel_map_left_iff]
      exact fun footer hf => Footer.declaredBy_toValue (h.footer footer hf)
    · rw [theme.given?_lastUpdated_toFields]
      cases hs : theme.lastUpdated with
      | none => rfl
      | some stamp => exact LastUpdated.declaredBy_toValue (h.lastUpdated stamp hs)

end Theme

theorem Site.declaredBy_toFields_iff {site : Site} (h : site.WellFormed) :
    Site.DeclaredBy site.toFields site ↔ site.LinksFixed := by
  have hhead : Option.Rel (Value.ListOf HeadTag.DeclaredBy) (site.toFields.given? "head")
      site.head ↔ ∀ l ∈ site.head, ∀ tag ∈ l, ∀ attributes ∈ tag.attributes,
        Schema.normalizeAssets attributes = attributes := by
    rw [← forall₄_congr fun l hl tag ht => HeadTag.declaredBy_toValue_iff (h.head l hl tag ht),
      ← rel_listOf_listOrNull_iff]
    simp [Site.toFields, Fields.given?]
  have htheme : site.toFields.given? "themeConfig" = some (.record site.theme.toFields) := by
    simp [Site.toFields, Fields.given?, Option.filter_some]
  have hlang : site.toFields.given? "lang" = (some site.lang).map .text := by
    simp [Site.toFields, Fields.given?, Option.filter_some, h.lang.1]
  have hkept : site.lang = Schema.textOr defaultLang ((some site.lang).map Text.trim) := by
    simp [Schema.textOr, h.lang.1, h.lang.2]
  simp only [Schema.normalizeAssets_eq_self_iff] at hhead
  constructor
  · intro hd
    obtain ⟨theme, hrel, heq⟩ := hd.theme
    rw [htheme, rel_some_iff] at hrel
    obtain ⟨t, rfl, fields, hf, ht⟩ := hrel
    obtain rfl := Option.some.inj ((Value.fields?_record _).symm.trans hf)
    obtain rfl : site.theme = t := heq
    obtain ⟨hlogo, hnav, hsidebar⟩ := (Theme.declaredBy_toFields_iff h.theme).mp ht
    exact ⟨hlogo, hnav, hsidebar, hhead.mp hd.head⟩
  · intro hfixed
    exact {
      title := ⟨site.title, ⟨by simp [Site.toFields], h.title.not_blank⟩, h.title.2.symm⟩
      description := ⟨site.description, ⟨by simp [Site.toFields], h.description.not_blank⟩,
        h.description.2.symm⟩
      lang := ⟨some site.lang, hlang, hkept⟩
      head := hhead.mpr hfixed.head
      theme := ⟨some site.theme, by
        rw [htheme]
        exact .some ⟨_, Value.fields?_record _, (Theme.declaredBy_toFields_iff h.theme).mpr
          ⟨hfixed.logo, hfixed.nav, hfixed.sidebar⟩⟩, rfl⟩ }

theorem Site.eq_of_line_eq {a b : Site}
    (h : Json.line (Json.ofFields a.toFields) = Json.line (Json.ofFields b.toFields)) : a = b :=
  Site.toFields_injective (Json.fields_eq_of_line_eq a.plain_toFields b.plain_toFields h)

/-- What was built comes back from its own declaration, with the same document, exactly when all
its links are their own normal forms. -/
theorem build_toFields_iff {declaration : Fields} {r : Report} (h : build declaration = .ok r) :
    (∃ r', build r.site.toFields = .ok r' ∧
      Json.line (Json.ofFields r'.site.toFields) = Json.line (Json.ofFields r.site.toFields)) ↔
      r.site.LinksFixed := by
  obtain ⟨hd, hfree, _⟩ := build_eq_ok_iff.mp h
  rw [← Site.declaredBy_toFields_iff (hd.wellFormed hfree)]
  constructor
  · rintro ⟨r', hr', hline⟩
    rw [← Site.eq_of_line_eq hline] at hr' ⊢
    exact (build_eq_ok_iff.mp hr').1
  · intro hself
    -- the sidebar is the same, so it is free of collisions again
    exact ⟨⟨r.site, (Schema.site r.site.toFields).warnings⟩,
      build_eq_ok_iff.mpr ⟨hself, hfree, rfl⟩, rfl⟩

theorem build_toFields_blank_logo :
    ∃ r, build [("title", .text "Docs"), ("description", .text "All of it"),
        ("themeConfig", .record [("logo", .text "logo /")])] = .ok r ∧
      ¬∃ r', build r.site.toFields = .ok r' ∧
        Json.line (Json.ofFields r'.site.toFields) = Json.line (Json.ofFields r.site.toFields) := by
  refine ⟨?_, ?built, fun hback => absurd ((build_toFields_iff ?built).mp hback).logo ?logo⟩
  case built => rfl
  case logo => decide +kernel

end DocSite
