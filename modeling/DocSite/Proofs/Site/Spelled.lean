import DocSite.Proofs.Format

namespace DocSite

section Relations

variable {α : Type}

inductive SpelledUnless (empty : α) (R : Value → α → Prop) : Option Value → α → Prop
  | absent : SpelledUnless empty R none empty
  | present {v : Value} {a : α} : a ≠ empty → R v a → SpelledUnless empty R (some v) a

inductive SpelledOrNull (R : Value → α → Prop) : Value → Option α → Prop
  | null : SpelledOrNull R .null none
  | given {v : Value} {a : α} : R v a → SpelledOrNull R v (some a)

inductive SpelledList (R : Value → α → Prop) : Value → List α → Prop
  | mk {values : List Value} {l : List α} :
    List.Forall₂ R values l → SpelledList R (.list values) l

inductive SpelledRecord (R : Fields → α → Prop) : Value → α → Prop
  | mk {fields : Fields} {a : α} : R fields a → SpelledRecord R (.record fields) a

end Relations

inductive SpelledText : Value → String → Prop
  | mk (s : String) : SpelledText (.text s) s

structure TextMap.SpelledBy (fields : Fields) (m : TextMap) : Prop where
  keys : (fields.map (·.1)).Nodup
  texts : ∀ key, Option.Rel SpelledText (fields.get? key) (m.get? key)

structure HeadTag.SpelledBy (fields : Fields) (tag : HeadTag) : Prop where
  keys : (fields.map (·.1)).Sublist Schema.headKeys
  tagName : Option.Rel SpelledText (fields.get? "tagName") (some tag.tagName)
  attributes : Option.Rel (SpelledOrNull (SpelledRecord TextMap.SpelledBy))
    (fields.get? "attributes") (some tag.attributes)

inductive NavItem.SpelledBy : Fields → NavItem → Prop
  | mk {fields : Fields} {text link : String} {items : List NavItem} :
    (fields.map (·.1)).Sublist Schema.navKeys →
      Option.Rel SpelledText (fields.get? "text") (some text) →
      SpelledUnless "" SpelledText (fields.get? "link") link →
      SpelledUnless [] (SpelledList (SpelledRecord NavItem.SpelledBy)) (fields.get? "items") items →
      NavItem.SpelledBy fields ⟨text, link, items⟩

structure SidebarItem.SpelledBy (fields : Fields) (item : SidebarItem) : Prop where
  keys : (fields.map (·.1)).Sublist Schema.itemKeys
  text : Option.Rel SpelledText (fields.get? "text") (some item.text)
  link : Option.Rel SpelledText (fields.get? "link") (some item.link)

structure SidebarGroup.SpelledBy (fields : Fields) (group : SidebarGroup) : Prop where
  keys : (fields.map (·.1)).Sublist Schema.groupKeys
  text : Option.Rel SpelledText (fields.get? "text") (some group.text)
  link : SpelledUnless "" SpelledText (fields.get? "link") group.link
  collapsed : fields.get? "collapsed" = group.collapsed.map .bool
  items : SpelledUnless [] (SpelledList (SpelledRecord SidebarItem.SpelledBy)) (fields.get? "items")
    group.items

structure SocialLink.SpelledBy (fields : Fields) (link : SocialLink) : Prop where
  keys : (fields.map (·.1)).Sublist Schema.socialKeys
  icon : Option.Rel SpelledText (fields.get? "icon") (some link.icon)
  link : Option.Rel SpelledText (fields.get? "link") (some link.link)

structure Search.SpelledBy (fields : Fields) (search : Search) : Prop where
  keys : (fields.map (·.1)).Sublist Schema.searchKeys
  provider : Option.Rel SpelledText (fields.get? "provider") (some search.provider)
  options : SpelledUnless .empty (SpelledRecord TextMap.SpelledBy) (fields.get? "options")
    search.options

structure Footer.SpelledBy (fields : Fields) (footer : Footer) : Prop where
  keys : (fields.map (·.1)).Sublist Schema.footerKeys
  message : SpelledUnless "" SpelledText (fields.get? "message") footer.message
  copyright : SpelledUnless "" SpelledText (fields.get? "copyright") footer.copyright

structure LastUpdated.StylesSpelledBy (fields : Fields) (stamp : LastUpdated) : Prop where
  keys : (fields.map (·.1)).Sublist Schema.formatKeys
  dateStyle : Option.Rel SpelledText (fields.get? "dateStyle") (some stamp.dateStyle)
  timeStyle : Option.Rel SpelledText (fields.get? "timeStyle") (some stamp.timeStyle)

structure LastUpdated.SpelledBy (fields : Fields) (stamp : LastUpdated) : Prop where
  keys : (fields.map (·.1)).Sublist Schema.lastUpdatedKeys
  text : Option.Rel SpelledText (fields.get? "text") (some stamp.text)
  formatOptions : Option.Rel (SpelledRecord LastUpdated.StylesSpelledBy)
    (fields.get? "formatOptions") (some stamp)

structure Theme.SpelledBy (fields : Fields) (theme : Theme) : Prop where
  keys : (fields.map (·.1)).Sublist Schema.themeKeys
  logo : SpelledUnless "" SpelledText (fields.get? "logo") theme.logo
  nav : Option.Rel (SpelledOrNull (SpelledList (SpelledRecord NavItem.SpelledBy)))
    (fields.get? "nav") (some theme.nav)
  sidebar : Option.Rel (SpelledOrNull (SpelledList (SpelledRecord SidebarGroup.SpelledBy)))
    (fields.get? "sidebar") (some theme.sidebar)
  socialLinks : Option.Rel (SpelledOrNull (SpelledList (SpelledRecord SocialLink.SpelledBy)))
    (fields.get? "socialLinks") (some theme.socialLinks)
  search : Option.Rel (SpelledRecord Search.SpelledBy) (fields.get? "search") theme.search
  footer : Option.Rel (SpelledRecord Footer.SpelledBy) (fields.get? "footer") theme.footer
  lastUpdated : Option.Rel (SpelledRecord LastUpdated.SpelledBy) (fields.get? "lastUpdated")
    theme.lastUpdated

structure Site.SpelledBy (fields : Fields) (site : Site) : Prop where
  keys : (fields.map (·.1)).Sublist Schema.siteKeys
  title : Option.Rel SpelledText (fields.get? "title") (some site.title)
  description : Option.Rel SpelledText (fields.get? "description") (some site.description)
  lang : SpelledUnless "" SpelledText (fields.get? "lang") site.lang
  head : Option.Rel (SpelledOrNull (SpelledList (SpelledRecord HeadTag.SpelledBy)))
    (fields.get? "head") (some site.head)
  theme : Option.Rel (SpelledRecord Theme.SpelledBy) (fields.get? "themeConfig") (some site.theme)

section Writing

variable {α : Type} {R : Value → α → Prop} {write : α → Value}

theorem spelledUnless_ite {e a : α} {v : Value} [Decidable (a = e)] (h : R v a) :
    SpelledUnless e R (if a = e then none else some v) a := by
  split
  case isTrue ha =>
    rw [ha]
    exact .absent
  case isFalse ha => exact .present ha h

theorem spelledUnless_text (s : String) :
    SpelledUnless "" SpelledText (if s = "" then none else some (.text s)) s :=
  spelledUnless_ite (.mk s)

theorem spelledList_map {l : List α} (h : ∀ a ∈ l, R (write a) a) :
    SpelledList R (.list (l.map write)) l := by
  refine .mk ?_
  rw [List.forall₂_map_left_iff, List.forall₂_same]
  exact h

theorem spelledOrNull_listOrNull (h : ∀ a, R (write a) a) (l : Option (List α)) :
    SpelledOrNull (SpelledList R) (listOrNull write l) l := by
  cases l with
  | none => exact .null
  | some l => exact .given (spelledList_map fun a _ => h a)

theorem rel_map (h : ∀ a, R (write a) a) (o : Option α) : Option.Rel R (o.map write) o := by
  cases o with
  | none => exact .none
  | some a => exact .some (h a)

theorem sublist_unless (p : Prop) [Decidable p] (f : String × Value) :
    ((if p then [] else [f]).map (·.1)).Sublist [f.1] := by
  by_cases hp : p <;> simp [hp]

end Writing

theorem TextMap.spelled_toValue (m : TextMap) : SpelledRecord TextMap.SpelledBy m.toValue m := by
  refine .mk ⟨m.plain_toValue.nodup_keys, fun key => ?_⟩
  rw [m.get?_map_text]
  exact rel_map .mk (m.get? key)

theorem HeadTag.spelled_toValue (tag : HeadTag) :
    SpelledRecord HeadTag.SpelledBy tag.toValue tag := by
  have hattributes : SpelledOrNull (SpelledRecord TextMap.SpelledBy)
      ((tag.attributes.map TextMap.toValue).getD .null) tag.attributes := by
    cases tag.attributes with
    | none => exact .null
    | some m => exact .given m.spelled_toValue
  exact .mk {
    keys := .refl _
    tagName := .some (.mk _)
    attributes := .some hattributes }

theorem NavItem.spelled_toValue (item : NavItem) :
    SpelledRecord NavItem.SpelledBy item.toValue item := by
  induction item with
  | mk text link items ih =>
    rw [NavItem.toValue_mk]
    refine .mk (.mk ?_ (.some (.mk text)) ?_ ?_)
    · rw [List.map_append]
      exact ((sublist_unlessEmpty _ _).cons_cons _).append (sublist_unless _ _)
    · simpa using spelledUnless_text link
    · have hitems := spelledUnless_ite (e := []) (spelledList_map ih)
      simpa using hitems

theorem SidebarItem.spelled_toValue (item : SidebarItem) :
    SpelledRecord SidebarItem.SpelledBy item.toValue item :=
  .mk ⟨.refl _, .some (.mk _), .some (.mk _)⟩

theorem SidebarGroup.spelled_toValue (group : SidebarGroup) :
    SpelledRecord SidebarGroup.SpelledBy group.toValue group := by
  refine .mk { keys := ?_, text := .some (.mk _), link := ?_, collapsed := ?_, items := ?_ }
  · simp only [List.map_append]
    exact (((sublist_unlessEmpty _ _).cons_cons _).append (sublist_whenSome _ _)).append
      (sublist_unless _ _)
  · simpa using spelledUnless_text group.link
  · simp
  · have hitems := spelledUnless_ite (e := [])
      (spelledList_map fun item (_ : item ∈ group.items) => item.spelled_toValue)
    simpa using hitems

theorem SocialLink.spelled_toValue (link : SocialLink) :
    SpelledRecord SocialLink.SpelledBy link.toValue link :=
  .mk ⟨.refl _, .some (.mk _), .some (.mk _)⟩

theorem Search.spelled_toValue (search : Search) :
    SpelledRecord Search.SpelledBy search.toValue search := by
  refine .mk ⟨(sublist_unless _ _).cons_cons _, .some (.mk _), ?_⟩
  have hoptions := spelledUnless_ite (e := .empty) search.options.spelled_toValue
  simpa [TextMap.isEmpty_iff] using hoptions

theorem Footer.spelled_toValue (footer : Footer) :
    SpelledRecord Footer.SpelledBy footer.toValue footer := by
  refine .mk ⟨?_, ?_, ?_⟩
  · rw [List.map_append]
    exact (sublist_unlessEmpty _ _).append (sublist_unlessEmpty _ _)
  · simpa using spelledUnless_text footer.message
  · simpa using spelledUnless_text footer.copyright

theorem LastUpdated.spelled_toValue (stamp : LastUpdated) :
    SpelledRecord LastUpdated.SpelledBy stamp.toValue stamp :=
  .mk ⟨.refl _, .some (.mk _), .some (.mk ⟨.refl _, .some (.mk _), .some (.mk _)⟩)⟩

theorem Theme.spelledBy_toFields (theme : Theme) : Theme.SpelledBy theme.toFields theme := by
  have hnav := spelledOrNull_listOrNull NavItem.spelled_toValue theme.nav
  have hsidebar := spelledOrNull_listOrNull SidebarGroup.spelled_toValue theme.sidebar
  have hsocial := spelledOrNull_listOrNull SocialLink.spelled_toValue theme.socialLinks
  exact {
    keys := theme.keys_toFields
    logo := by simpa [Theme.toFields] using spelledUnless_text theme.logo
    nav := by simpa [Theme.toFields] using hnav
    sidebar := by simpa [Theme.toFields] using hsidebar
    socialLinks := by simpa [Theme.toFields] using hsocial
    search := by simpa [Theme.toFields] using rel_map Search.spelled_toValue theme.search
    footer := by simpa [Theme.toFields] using rel_map Footer.spelled_toValue theme.footer
    lastUpdated := by
      simpa [Theme.toFields] using rel_map LastUpdated.spelled_toValue theme.lastUpdated }

theorem Site.spelledBy_toFields (site : Site) : Site.SpelledBy site.toFields site := by
  have hhead := spelledOrNull_listOrNull HeadTag.spelled_toValue site.head
  have htheme := SpelledRecord.mk site.theme.spelledBy_toFields
  exact {
    keys := site.keys_toFields
    title := .some (.mk _)
    description := .some (.mk _)
    lang := by simpa [Site.toFields] using spelledUnless_text site.lang
    head := by simpa [Site.toFields] using hhead
    theme := by simpa [Site.toFields] using htheme }

/-- The declaration that a configuration is turned back into, by reading the line of it. -/
def Site.raw? (site : Site) : Option Fields :=
  (Json.parse? (Json.writeCompact (Json.ofFields site.toFields))).bind Json.toDeclaration?

theorem Site.raw?_of_fits {site : Site}
    (h : Json.Fits Json.depthLimit (Json.ofFields site.toFields)) :
    site.raw? = some site.toFields := by
  rw [Site.raw?, Json.parse?_writeCompact h]
  exact Json.toDeclaration?_ofFields site.plain_toFields

/-- Whatever its texts hold, a configuration that does not nest too deep is read from its page as it
is from its line, and what is read is spelled key by key. -/
theorem Site.decode_encode_json {site : Site}
    (h : (Json.ofFields site.toFields).nesting ≤ Json.depthLimit) :
    site.raw? = some site.toFields ∧
      Format.json.decode (site.encode .json) = .ok site.toFields ∧
      Site.SpelledBy site.toFields site := by
  have hfits := (Json.numberFree_ofValue site.plain_toFields).fits h
  exact ⟨Site.raw?_of_fits hfits, Site.decode_json_of_fits hfits, site.spelledBy_toFields⟩

theorem Site.decode_encode_json_rare :
    let site : Site := ⟨"a \"quoted\" <b> & \\ \u2028", "\t\n\u0001\u007f\u2029", "",
      some [⟨"<meta>", some ⟨[("<&>", "\u0000\""), ("\u2028", "\u2029")], by decide⟩⟩],
      ⟨"", some [], none, some [⟨"x", "/"⟩], some ⟨"local", .empty⟩, some ⟨"", ""⟩, none⟩⟩
    (Json.ofFields site.toFields).nesting ≤ Json.depthLimit ∧
      site.raw? = some site.toFields ∧
      Format.json.decode (site.encode .json) = .ok site.toFields ∧
      Site.SpelledBy site.toFields site := by
  intro site
  have hnesting : (Json.ofFields site.toFields).nesting ≤ Json.depthLimit := by decide +kernel
  exact ⟨hnesting, Site.decode_encode_json hnesting⟩

end DocSite
