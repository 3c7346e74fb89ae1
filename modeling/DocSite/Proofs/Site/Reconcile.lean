import DocSite.Proofs.Site.WellFormed

namespace DocSite

def IsLast (p : α → Prop) (l : List α) (k : Nat) (a : α) : Prop :=
  l[k]? = some a ∧ p a ∧ ∀ j b, k < j → l[j]? = some b → ¬p b

structure LastWins (given : α → Prop) (absent : α) (values : List α) (result : α) : Prop where
  last : ∀ k a, IsLast given values k a → result = a
  none : (∀ a ∈ values, ¬given a) → result = absent

/-- The result is the last of the lists that were given, unless that list is empty and others came
after it. -/
structure LastListWins (lists : List (Option (List α))) (result : Option (List α)) : Prop where
  newest : ∀ k l, IsLast (· ≠ Option.none) lists k (some l) → k + 1 = lists.length →
    result = some l
  older : ∀ k l, IsLast (· ≠ Option.none) lists k (some l) → k + 1 < lists.length →
    result = if l = [] then Option.none else some l
  none : (∀ l ∈ lists, l = Option.none) → result = Option.none

structure Site.LastWins (sites : List Site) (result : Site) : Prop where
  title : DocSite.LastWins (· ≠ "") "" (sites.map (·.title)) result.title
  description : DocSite.LastWins (· ≠ "") "" (sites.map (·.description)) result.description
  lang : DocSite.LastWins (· ≠ "") "" (sites.map (·.lang)) result.lang
  head : LastListWins (sites.map (·.head)) result.head
  logo : DocSite.LastWins (· ≠ "") "" (sites.map (·.theme.logo)) result.theme.logo
  nav : LastListWins (sites.map (·.theme.nav)) result.theme.nav
  sidebar : LastListWins (sites.map (·.theme.sidebar)) result.theme.sidebar
  socialLinks : LastListWins (sites.map (·.theme.socialLinks)) result.theme.socialLinks
  search : DocSite.LastWins (· ≠ none) none (sites.map (·.theme.search)) result.theme.search
  footer : DocSite.LastWins (· ≠ none) none (sites.map (·.theme.footer)) result.theme.footer
  lastUpdated :
    DocSite.LastWins (· ≠ none) none (sites.map (·.theme.lastUpdated)) result.theme.lastUpdated

section Run

theorem isLast_concat_of_given {p : α → Prop} {l : List α} {a b : α} {k : Nat} (hb : p b) :
    IsLast p (l ++ [b]) k a ↔ k = l.length ∧ a = b := by
  constructor
  · rintro ⟨hk, _, hafter⟩
    have hle : ¬k < l.length := fun hlt => hafter l.length b hlt (by simp) hb
    have hlt : k < l.length + 1 := by
      simpa using (List.getElem?_eq_some_iff.mp hk).1
    obtain rfl : k = l.length := by omega
    exact ⟨rfl, by simpa using hk.symm⟩
  · rintro ⟨rfl, rfl⟩
    refine ⟨by simp, hb, fun j c hj hc => ?_⟩
    have := (List.getElem?_eq_some_iff.mp hc).1
    simp only [List.length_append, List.length_singleton] at this
    omega

theorem isLast_concat_of_not_given {p : α → Prop} {l : List α} {a b : α} {k : Nat} (hb : ¬p b) :
    IsLast p (l ++ [b]) k a ↔ IsLast p l k a := by
  constructor
  · rintro ⟨hk, ha, hafter⟩
    have hlt : k < l.length := by
      have hlt : k < l.length + 1 := by simpa using (List.getElem?_eq_some_iff.mp hk).1
      have hne : k ≠ l.length := by
        rintro rfl
        obtain rfl : b = a := by simpa using hk
        exact hb ha
      omega
    refine ⟨by rwa [List.getElem?_append_left hlt] at hk, ha, fun j c hj hc => hafter j c hj ?_⟩
    rwa [List.getElem?_append_left (List.getElem?_eq_some_iff.mp hc).1]
  · rintro ⟨hk, ha, hafter⟩
    have hlt := (List.getElem?_eq_some_iff.mp hk).1
    refine ⟨by rwa [List.getElem?_append_left hlt], ha, fun j c hj hc => ?_⟩
    rcases Nat.lt_or_ge j l.length with hj' | hj'
    · exact hafter j c hj (by rwa [List.getElem?_append_left hj'] at hc)
    · have hle := (List.getElem?_eq_some_iff.mp hc).1
      simp only [List.length_append, List.length_singleton] at hle
      obtain rfl : j = l.length := by omega
      obtain rfl : b = c := by simpa using hc
      exact hb

theorem IsLast.length_le {p : α → Prop} {l : List α} {k : Nat} {a : α} (h : IsLast p l k a) :
    k + 1 ≤ l.length :=
  (List.getElem?_eq_some_iff.mp h.1).1

variable {given : α → Prop} {absent : α} {values : List α} {result value : α}

theorem LastWins.singleton (h : ¬given value → value = absent) :
    LastWins given absent [value] value where
  last k a ha := by
    obtain ⟨hk, _⟩ := ha
    have : k = 0 := by simpa using (List.getElem?_eq_some_iff.mp hk).1
    subst this
    simpa using hk
  none hnone := h (by simpa using hnone)

theorem LastWins.concat_given (hv : given value) : LastWins given absent (values ++ [value]) value
    where
  last _ _ ha := ((isLast_concat_of_given hv).mp ha).2.symm
  none hnone := absurd hv (hnone value (by simp))

theorem LastWins.concat_not_given (h : LastWins given absent values result) (hv : ¬given value) :
    LastWins given absent (values ++ [value]) result where
  last k a ha := h.last k a ((isLast_concat_of_not_given hv).mp ha)
  none hnone := h.none fun a ha => hnone a (by simp [ha])

theorem LastWins.takeText {texts : List String} {older newer : String}
    (h : LastWins (· ≠ "") "" texts older) :
    LastWins (· ≠ "") "" (texts ++ [newer]) (DocSite.takeText older newer) := by
  rw [DocSite.takeText]
  split
  case isTrue hn => exact h.concat_not_given (by simpa using hn)
  case isFalse hn => exact .concat_given hn

theorem LastWins.orElse {sections : List (Option β)} {older newer : Option β}
    (h : LastWins (· ≠ Option.none) Option.none sections older) :
    LastWins (· ≠ Option.none) Option.none (sections ++ [newer]) (newer <|> older) := by
  cases newer with
  | none => exact h.concat_not_given (by simp)
  | some a => exact .concat_given (by simp)

theorem LastListWins.singleton (list : Option (List β)) : LastListWins [list] list where
  newest k l hl _ := by
    obtain rfl : k = 0 := by simpa using hl.length_le
    simpa using hl.1
  older k l _ hk := absurd hk (by simp)
  none hnone := hnone list (by simp)

theorem LastListWins.takeList {lists : List (Option (List β))} {older newer : Option (List β)}
    (h : LastListWins lists older) :
    LastListWins (lists ++ [newer]) (DocSite.takeList older newer) := by
  cases newer with
  | some list =>
    have hlast := fun k l => isLast_concat_of_given (l := lists) (a := some l) (k := k)
      (p := (· ≠ Option.none)) (show some list ≠ Option.none by simp)
    constructor
    case newest =>
      intro k l hl _
      exact ((hlast k l).mp hl).2.symm
    case older =>
      intro k l hl hk
      obtain ⟨rfl, _⟩ := (hlast k l).mp hl
      simp at hk
    case none =>
      intro hnone
      exact absurd (hnone (some list) (by simp)) (by simp)
  | none =>
    have hlast := fun k l => isLast_concat_of_not_given (l := lists) (a := some l) (k := k)
      (p := (· ≠ Option.none)) (b := Option.none) (by simp)
    constructor
    case newest =>
      intro k l hl hk
      have := ((hlast k l).mp hl).length_le
      simp only [List.length_append, List.length_singleton] at hk
      omega
    case older =>
      intro k l hl _
      have hl := (hlast k l).mp hl
      -- the older result is the list itself, or nothing where the list was passed over before
      have hold : older = some l ∨ (l = [] ∧ older = Option.none) := by
        rcases Nat.lt_or_eq_of_le hl.length_le with hk | hk
        · have := h.older k l hl hk
          by_cases hnil : l = [] <;> simp_all
        · exact .inl (h.newest k l hl hk)
      rcases hold with rfl | ⟨rfl, rfl⟩
      · cases l <;> simp [DocSite.takeList, Option.filter_some]
      · rfl
    case none =>
      intro hnone
      rw [h.none fun l hl => hnone l (by simp [hl])]
      rfl

end Run

theorem Site.LastWins.singleton (site : Site) : Site.LastWins [site] site where
  title := .singleton (by simp)
  description := .singleton (by simp)
  lang := .singleton (by simp)
  head := .singleton _
  logo := .singleton (by simp)
  nav := .singleton _
  sidebar := .singleton _
  socialLinks := .singleton _
  search := .singleton (by simp)
  footer := .singleton (by simp)
  lastUpdated := .singleton (by simp)

theorem Site.LastWins.reconcile {sites : List Site} {older : Site}
    (h : Site.LastWins sites older) (newer : Site) :
    Site.LastWins (sites ++ [newer]) (older.reconcile newer) := by
  constructor <;> rw [List.map_append, List.map_singleton]
  case title => exact h.title.takeText
  case description => exact h.description.takeText
  case lang => exact h.lang.takeText
  case head => exact h.head.takeList
  case logo => exact h.logo.takeText
  case nav => exact h.nav.takeList
  case sidebar => exact h.sidebar.takeList
  case socialLinks => exact h.socialLinks.takeList
  case search => exact h.search.orElse
  case footer => exact h.footer.orElse
  case lastUpdated => exact h.lastUpdated.orElse

/-- However many configurations are laid over the first one, every field comes from its last
writer. -/
theorem Site.foldl_reconcile_lastWins (first : Site) (rest : List Site) :
    Site.LastWins (first :: rest) (rest.foldl Site.reconcile first) := by
  -- from the newest configuration back, since each step lays one more on top
  induction rest using List.reverseRecOn with
  | nil => exact .singleton first
  | append_singleton rest newer ih =>
    rw [List.foldl_append]
    exact ih.reconcile newer

def Fields.givenInTheme? (fields : Fields) (key : String) : Option Value :=
  ((fields.given? "themeConfig").bind Value.fields?).bind (Fields.given? · key)

/-- What is kept of the older configuration where a declaration leaves a field out. All sections
are kept and so is the logo; lists are kept unless they are empty, and of the languages only the
standard one is kept, since a declaration without one declares that. -/
structure Site.Keeps (declaration : Fields) (older result : Site) : Prop where
  lang : declaration.given? "lang" = none →
    (result.lang = older.lang ↔ older.lang = defaultLang)
  head : declaration.given? "head" = none → (result.head = older.head ↔ older.head ≠ some [])
  logo : declaration.givenInTheme? "logo" = none → result.theme.logo = older.theme.logo
  nav : declaration.givenInTheme? "nav" = none →
    (result.theme.nav = older.theme.nav ↔ older.theme.nav ≠ some [])
  sidebar : declaration.givenInTheme? "sidebar" = none →
    (result.theme.sidebar = older.theme.sidebar ↔ older.theme.sidebar ≠ some [])
  socialLinks : declaration.givenInTheme? "socialLinks" = none →
    (result.theme.socialLinks = older.theme.socialLinks ↔ older.theme.socialLinks ≠ some [])
  search : declaration.givenInTheme? "search" = none → result.theme.search = older.theme.search
  footer : declaration.givenInTheme? "footer" = none → result.theme.footer = older.theme.footer
  lastUpdated : declaration.givenInTheme? "lastUpdated" = none →
    result.theme.lastUpdated = older.theme.lastUpdated

section Absent

theorem takeList_none_eq_iff (older : Option (List α)) :
    takeList older none = older ↔ older ≠ some [] := by
  cases older with
  | none => simp [takeList]
  | some l => cases l <;> simp [takeList, Option.filter_some]

theorem Theme.LogoBy.eq_empty {fields : Fields} {logo : String} (h : Theme.LogoBy fields logo)
    (hnone : fields.given? "logo" = none) : logo = "" := by
  cases h with
  | absent => rfl
  | blank => rfl
  | link hs =>
    rcases Fields.given?_eq_none_iff.mp hnone with hn | hn <;> simp [hs.1] at hn

variable {declaration : Fields} {site : Site}

theorem Site.DeclaredBy.theme_cases (h : site.DeclaredBy declaration) :
    site.theme = .empty ∨ ∃ fields : Fields, Theme.DeclaredBy fields site.theme ∧
      ∀ key, declaration.givenInTheme? key = fields.given? key := by
  obtain ⟨theme, hrel, ht⟩ := h.theme
  cases theme with
  | none => exact .inl ht
  | some theme =>
    generalize hgiven : declaration.given? "themeConfig" = given at hrel
    cases hrel with
    | some hf =>
      obtain ⟨fields, hfields, hdeclared⟩ := hf
      refine .inr ⟨fields, ht ▸ hdeclared, fun key => ?_⟩
      simp [Fields.givenInTheme?, hgiven, hfields]

theorem Site.DeclaredBy.lang_of_absent (h : site.DeclaredBy declaration)
    (hnone : declaration.given? "lang" = none) : site.lang = defaultLang := by
  obtain ⟨s, hs, hlang⟩ := h.lang
  rw [hnone, eq_comm, Option.map_eq_none_iff] at hs
  rw [hlang, hs]
  rfl

theorem Site.DeclaredBy.head_of_absent (h : site.DeclaredBy declaration)
    (hnone : declaration.given? "head" = none) : site.head = none :=
  rel_none_iff.mp (hnone ▸ h.head)

theorem Site.DeclaredBy.theme_of_absent (h : site.DeclaredBy declaration) :
    (declaration.givenInTheme? "logo" = none → site.theme.logo = "") ∧
    (declaration.givenInTheme? "nav" = none → site.theme.nav = none) ∧
    (declaration.givenInTheme? "sidebar" = none → site.theme.sidebar = none) ∧
    (declaration.givenInTheme? "socialLinks" = none → site.theme.socialLinks = none) ∧
    (declaration.givenInTheme? "search" = none → site.theme.search = none) ∧
    (declaration.givenInTheme? "footer" = none → site.theme.footer = none) ∧
    (declaration.givenInTheme? "lastUpdated" = none → site.theme.lastUpdated = none) := by
  rcases h.theme_cases with hempty | ⟨fields, hd, hkeys⟩
  · simp [hempty, Theme.empty]
  · simp only [hkeys]
    refine ⟨hd.logo.eq_empty, fun hn => ?_, fun hn => ?_, fun hn => ?_, fun hn => ?_,
      fun hn => ?_, fun hn => ?_⟩
    · exact rel_none_iff.mp (hn ▸ hd.nav)
    · exact rel_none_iff.mp (hn ▸ hd.sidebar)
    · exact rel_none_iff.mp (hn ▸ hd.socialLinks)
    · exact rel_none_iff.mp (hn ▸ hd.search)
    · exact rel_none_iff.mp (hn ▸ hd.footer)
    · simpa only [hn] using hd.lastUpdated

end Absent

/-- What was built is laid over a configuration: of the fields that its declaration leaves out,
these are kept. -/
theorem Site.reconcile_keeps {declaration : Fields} {r : Report}
    (h : build declaration = .ok r) (older : Site) :
    Site.Keeps declaration older (older.reconcile r.site) := by
  have hd := (build_eq_ok_iff.mp h).1
  obtain ⟨hlogo, hnav, hsidebar, hsocial, hsearch, hfooter, hstamp⟩ := hd.theme_of_absent
  have hlang : defaultLang ≠ "" := by decide
  constructor <;> intro hnone <;> simp only [Site.reconcile, Theme.reconcile]
  case lang => simp [hd.lang_of_absent hnone, takeText, hlang, eq_comm]
  case head => rw [hd.head_of_absent hnone, takeList_none_eq_iff]
  case logo => simp [hlogo hnone, takeText]
  case nav => rw [hnav hnone, takeList_none_eq_iff]
  case sidebar => rw [hsidebar hnone, takeList_none_eq_iff]
  case socialLinks => rw [hsocial hnone, takeList_none_eq_iff]
  case search => simp [hsearch hnone]
  case footer => simp [hfooter hnone]
  case lastUpdated => simp [hstamp hnone]

theorem Site.reconcile_keeps_nav_footer :
    ∃ older newer,
      build [("title", .text "Docs"), ("description", .text "Old"), ("lang", .text "en-US"),
        ("themeConfig", .record [("nav", .list [.record [("text", .text "Start"),
          ("link", .text "/start")]]), ("footer", .record [("message", .text "Bye")])])] =
        .ok older ∧
      build [("title", .text "Docs"), ("description", .text "New"), ("themeConfig", .null)] =
        .ok newer ∧
      older.site.theme.nav ≠ some [] ∧
      (older.site.reconcile newer.site).theme.nav = older.site.theme.nav ∧
      (older.site.reconcile newer.site).theme.footer = older.site.theme.footer ∧
      (older.site.reconcile newer.site).lang = older.site.lang := by
  refine ⟨?_, ?_, ?older, ?newer, ?members, ((Site.reconcile_keeps ?newer _).nav rfl).mpr ?members,
    (Site.reconcile_keeps ?newer _).footer rfl,
    ((Site.reconcile_keeps ?newer _).lang rfl).mpr ?lang⟩
  case older => rfl
  case newer => rfl
  case members => exact fun h => by cases h
  case lang => rfl

theorem Site.reconcile_loses_lang_head :
    ∃ older newer,
      build [("title", .text "Docs"), ("description", .text "Old"), ("lang", .text "de"),
        ("head", .list [])] = .ok older ∧
      build [("title", .text "Docs"), ("description", .text "New")] = .ok newer ∧
      (older.site.lang = "de" ∧ (older.site.reconcile newer.site).lang = "en-US") ∧
      older.site.head = some [] ∧ (older.site.reconcile newer.site).head = none :=
  ⟨_, _, rfl, rfl, ⟨rfl, rfl⟩, rfl, rfl⟩

end DocSite
