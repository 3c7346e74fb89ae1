import DocSite.Proofs.Link.Normal
import DocSite.Proofs.Schema.Review
import DocSite.Schema.Build

/-!
What declares what. Each part of a configuration has a relation to the value it is declared by: the
shape of the value, and the part that results. A reader yields a part exactly when the value
declares it, and the whole schema yields a configuration exactly when the declaration declares it.
-/

namespace DocSite

inductive HeadTag.Form : Value → Option Value → Option Value → Prop
  | mapping {v : Value} {fields : Fields} :
    v.fields? = some fields → Form v (fields.get? "tagName") (fields.get? "attributes")
  | single {v name : Value} : v.items? = some [name] → Form v (some name) none
  | pair {v name attributes : Value} :
    v.items? = some [name, attributes] → Form v (some name) (some attributes)

inductive HeadTag.PartsBy (name attributes : Option Value) : HeadTag → Prop
  | mk {raw : String} {texts : Option TextMap} :
    name = some (.text raw) → ¬Text.isBlankText raw →
      Option.Rel Value.TextsOf (attributes.filter fun v => !v.isNull) texts →
      PartsBy name attributes ⟨Text.trim raw, texts.map Schema.normalizeAssets⟩

def HeadTag.DeclaredBy (v : Value) (tag : HeadTag) : Prop :=
  ∃ name attributes, HeadTag.Form v name attributes ∧ HeadTag.PartsBy name attributes tag

inductive NavItem.DeclaredBy : Value → NavItem → Prop
  | link {v : Value} {fields : Fields} {text link : String} :
    v.fields? = some fields → fields.HasText "text" text → fields.HasText "link" link →
      fields.given? "items" = none → NavItem.DeclaredBy v ⟨Text.trim text, Link.normalize link, []⟩
  | menu {v w : Value} {fields : Fields} {text : String} {values : List Value}
      {items : List NavItem} :
    v.fields? = some fields → fields.HasText "text" text → fields.given? "link" = none →
      fields.given? "items" = some w → w.items? = some values →
      List.Forall₂ NavItem.DeclaredBy values items → items ≠ [] →
      NavItem.DeclaredBy v ⟨Text.trim text, "", items⟩

inductive SidebarItem.DeclaredBy : Value → SidebarItem → Prop
  | mk {v : Value} {fields : Fields} {text link : String} :
    v.fields? = some fields → fields.HasText "text" text → fields.HasText "link" link →
      SidebarItem.DeclaredBy v ⟨Text.trim text, Link.normalize link⟩

inductive SidebarGroup.DeclaredBy : Value → SidebarGroup → Prop
  | link {v : Value} {fields : Fields} {text link : String} {mark : Option Bool} :
    v.fields? = some fields → fields.HasText "text" text → fields.HasText "link" link →
      fields.given? "items" = none → fields.given? "collapsed" = mark.map .bool →
      SidebarGroup.DeclaredBy v ⟨Text.trim text, Link.normalize link, none, []⟩
  | group {v w : Value} {fields : Fields} {text : String} {mark : Option Bool}
      {items : List SidebarItem} :
    v.fields? = some fields → fields.HasText "text" text → fields.given? "link" = none →
      fields.given? "items" = some w → w.ListOf SidebarItem.DeclaredBy items → items ≠ [] →
      fields.given? "collapsed" = mark.map .bool →
      SidebarGroup.DeclaredBy v ⟨Text.trim text, "", mark, items⟩

inductive SocialLink.DeclaredBy : Value → SocialLink → Prop
  | mk {v : Value} {fields : Fields} {icon link : String} :
    v.fields? = some fields → fields.get? "icon" = some (.text icon) → icon ∈ knownIcons →
      fields.get? "link" = some (.text link) → Link.isAbsoluteUrl link →
      SocialLink.DeclaredBy v ⟨icon, link⟩

inductive Search.DeclaredBy : Value → Search → Prop
  | mk {v : Value} {fields : Fields} {provider : String} {options : Option TextMap} :
    v.fields? = some fields → fields.get? "provider" = some (.text provider) →
      provider ∈ knownProviders → Option.Rel Value.TextsOf (fields.given? "options") options →
      (provider = externalProvider → (options.getD .empty).isEmpty = false) →
      Search.DeclaredBy v ⟨provider, options.getD .empty⟩

inductive Footer.DeclaredBy : Value → Footer → Prop
  | mk {v : Value} {fields : Fields} {message copyright : Option String} :
    v.fields? = some fields → fields.given? "message" = message.map .text →
      fields.given? "copyright" = copyright.map .text →
      Footer.DeclaredBy v ⟨(message.map Text.trim).getD "", (copyright.map Text.trim).getD ""⟩

def Fields.StyleBy (fields : Fields) (key standard s : String) : Prop :=
  ∃ chosen : Option String, fields.given? key = chosen.map .text ∧
    (∀ word ∈ chosen, word ∈ knownStyles) ∧ s = chosen.getD standard

inductive LastUpdated.DeclaredBy : Value → Option LastUpdated → Prop
  | on : LastUpdated.DeclaredBy (.bool true) (some .default)
  | off : LastUpdated.DeclaredBy (.bool false) none
  | described {v : Value} {fields : Fields} {text : Option String} {format : Option Fields}
      {dateStyle timeStyle : String} :
    v.fields? = some fields → fields.given? "text" = text.map .text →
      Option.Rel (fun w f => Value.fields? w = some f) (fields.given? "formatOptions") format →
      (format.getD []).StyleBy "dateStyle" LastUpdated.default.dateStyle dateStyle →
      (format.getD []).StyleBy "timeStyle" LastUpdated.default.timeStyle timeStyle →
      LastUpdated.DeclaredBy v
        (some ⟨Schema.textOr LastUpdated.default.text (text.map Text.trim), dateStyle, timeStyle⟩)

inductive Theme.LogoBy (fields : Fields) : String → Prop
  | absent : fields.given? "logo" = none → Theme.LogoBy fields ""
  | blank {s : String} :
    fields.get? "logo" = some (.text s) → Text.isBlankText s → Theme.LogoBy fields ""
  | link {s : String} : fields.HasText "logo" s → Theme.LogoBy fields (Link.normalize s)

structure Theme.DeclaredBy (fields : Fields) (theme : Theme) : Prop where
  logo : Theme.LogoBy fields theme.logo
  nav : Option.Rel (Value.ListOf NavItem.DeclaredBy) (fields.given? "nav") theme.nav
  sidebar :
    Option.Rel (Value.ListOf SidebarGroup.DeclaredBy) (fields.given? "sidebar") theme.sidebar
  socialLinks :
    Option.Rel (Value.ListOf SocialLink.DeclaredBy) (fields.given? "socialLinks") theme.socialLinks
  search : Option.Rel Search.DeclaredBy (fields.given? "search") theme.search
  footer : Option.Rel Footer.DeclaredBy (fields.given? "footer") theme.footer
  lastUpdated : match fields.given? "lastUpdated" with
    | none => theme.lastUpdated = none
    | some v => LastUpdated.DeclaredBy v theme.lastUpdated

structure Site.DeclaredBy (fields : Fields) (site : Site) : Prop where
  title : ∃ s, fields.HasText "title" s ∧ site.title = Text.trim s
  description : ∃ s, fields.HasText "description" s ∧ site.description = Text.trim s
  lang : ∃ s : Option String, fields.given? "lang" = s.map .text ∧
    site.lang = Schema.textOr defaultLang (s.map Text.trim)
  head : Option.Rel (Value.ListOf HeadTag.DeclaredBy) (fields.given? "head") site.head
  theme : ∃ theme : Option Theme,
    Option.Rel (fun v t => ∃ f : Fields, v.fields? = some f ∧ Theme.DeclaredBy f t)
      (fields.given? "themeConfig") theme ∧ site.theme = theme.getD .empty

namespace Schema

open Review

theorem headTagParts_yields {path : String} {name attributes : Option Value}
    {o : Option HeadTag} :
    (headTagParts path name attributes).Yields o ↔
      ∃ tag, o = some tag ∧ HeadTag.PartsBy name attributes tag := by
  rw [headTagParts]
  cases hn : nonBlank? name with
  | none =>
    have hno : ∀ tag, ¬HeadTag.PartsBy name attributes tag := by
      rintro _ ⟨hname, hraw, _⟩
      rw [nonBlank?_eq_some_iff.mpr ⟨hname, hraw⟩] at hn
      cases hn
    simp [hno]
  | some raw =>
    obtain ⟨rfl, hraw⟩ := nonBlank?_eq_some_iff.mp hn
    have hiff : (∃ tag, o = some tag ∧ HeadTag.PartsBy (some (.text raw)) attributes tag) ↔
        ∃ texts, Option.Rel Value.TextsOf (attributes.filter fun v => !v.isNull) texts ∧
          o = some ⟨Text.trim raw, texts.map normalizeAssets⟩ := by
      constructor
      · rintro ⟨_, rfl, ⟨hname, _, htexts⟩⟩
        cases hname
        exact ⟨_, htexts, rfl⟩
      · rintro ⟨texts, htexts, rfl⟩
        exact ⟨_, rfl, rfl, hraw, htexts⟩
    rw [hiff]
    cases attributes.filter fun v => !v.isNull with
    | none => simp
    | some v =>
      simp only [yields_bind, textMap_reads _ v, yields_pure, rel_some_iff]
      constructor
      · rintro ⟨_, ⟨m, rfl, hm⟩, rfl⟩
        exact ⟨_, ⟨m, rfl, hm⟩, rfl⟩
      · rintro ⟨_, ⟨m, rfl, hm⟩, rfl⟩
        exact ⟨_, ⟨m, rfl, hm⟩, rfl⟩

theorem headTag_reads : Reads headTag HeadTag.DeclaredBy := by
  intro path v o
  have hform : (∃ tag, o = some tag ∧ HeadTag.DeclaredBy v tag) ↔
      ∃ name attributes, HeadTag.Form v name attributes ∧
        (headTagParts path name attributes).Yields o := by
    simp only [headTagParts_yields, HeadTag.DeclaredBy]
    constructor
    · rintro ⟨tag, rfl, name, attributes, hf, hp⟩
      exact ⟨name, attributes, hf, tag, rfl, hp⟩
    · rintro ⟨name, attributes, hf, tag, rfl, hp⟩
      exact ⟨tag, rfl, name, attributes, hf, hp⟩
  rw [hform, headTag]
  constructor
  · intro h
    split at h
    · simp only [yields_bind, yields_unknownKeys] at h
      obtain ⟨_, -, h⟩ := h
      exact ⟨_, _, .mapping (by assumption), h⟩
    · exact ⟨_, _, .single (by assumption), h⟩
    · exact ⟨_, _, .pair (by assumption), h⟩
    · simp at h
  · rintro ⟨name, attributes, hf, h⟩
    cases hf with
    | mapping hv => simp [hv, h]
    | single hv => simp [hv, Value.fields?_of_items? hv, h]
    | pair hv => simp [hv, Value.fields?_of_items? hv, h]

theorem navBelow_eq {fields : Fields} {w : Value} (h : fields.get? "items" = some w)
    (path : String) :
    navBelow path (fields.map fun f => (.text f.1, f.2)) = nav path w := by
  induction fields with
  | nil => simp [Fields.get?] at h
  | cons f r ih =>
    rw [Fields.get?, Text.lookup_cons] at h
    rw [List.map_cons, navBelow]
    by_cases hk : "items" = f.1
    · rw [if_pos hk, Option.some.injEq] at h
      rw [if_pos (by rw [← hk]), h]
    · rw [if_neg hk] at h
      rw [if_neg (by simpa using Ne.symm hk), ih h]

theorem entryLink_yields {path : String} {v : Value} {o : Option String} :
    (entryLink path v).Yields o ↔
      ∃ raw, v = .text raw ∧ ¬Text.isBlankText raw ∧ o = some (Link.normalize raw) := by
  rw [entryLink]
  cases h : nonBlank? (some v) with
  | none =>
    have hraw : ∀ raw, ¬(v = .text raw ∧ ¬Text.isBlankText raw) := by
      rintro raw ⟨rfl, hr⟩
      rw [nonBlank?_eq_some_iff.mpr ⟨rfl, hr⟩] at h
      cases h
    constructor
    · simp
    · rintro ⟨raw, hv, hr, _⟩
      exact absurd ⟨hv, hr⟩ (hraw raw)
  | some s =>
    have hs := nonBlank?_eq_some_iff.mp h
    simp_all

theorem labelUse_yields {path : String} {i : Nat} {uses : List (String × Nat)} {label : String}
    {u : Unit} : (labelUse path i uses label).Yields u := by
  rw [labelUse]
  split <;> simp

theorem not_declaredBy_of_fields? {v : Value} {item : NavItem} (h : v.fields? = none) :
    ¬NavItem.DeclaredBy v item := by
  intro hd
  cases hd <;> simp_all

theorem navFrom_yields {items : List Value}
    (h : ∀ v ∈ items, ∀ path o, (navEntry path v).Yields o ↔
      ∃ item, o = some item ∧ NavItem.DeclaredBy v item)
    {path : String} {i : Nat} {uses : List (String × Nat)} {l : List NavItem} :
    (navFrom path i uses items).Yields l ↔ List.Forall₂ NavItem.DeclaredBy items l := by
  induction items generalizing i uses l with
  | nil => simp [navFrom]
  | cons v r ih =>
    have ih := @ih fun v hv => h v (List.mem_cons_of_mem _ hv)
    rw [navFrom, yields_bind, List.forall₂_cons_left_iff]
    constructor
    · rintro ⟨o, ho, hy⟩
      obtain ⟨item, rfl, hitem⟩ := (h v List.mem_cons_self _ _).mp ho
      simp only [yields_bind, ih, yields_pure] at hy
      obtain ⟨_, _, rest, hrest, rfl⟩ := hy
      exact ⟨item, rest, hitem, hrest, rfl⟩
    · rintro ⟨item, rest, hitem, hrest, rfl⟩
      refine ⟨some item, (h v List.mem_cons_self _ _).mpr ⟨item, rfl, hitem⟩, ?_⟩
      simp only [yields_bind, ih, yields_pure]
      exact ⟨(), labelUse_yields, rest, hrest, rfl⟩

theorem navEntry_mapping_yields {kind : MappingKind} {fields : Fields}
    (h : ∀ w, fields.get? "items" = some w → ∀ path o, (nav path w).Yields o ↔
      ∃ l, o = some l ∧ w.ListOf NavItem.DeclaredBy l)
    {path : String} {o : Option NavItem} :
    (navEntry path (.mapping kind (fields.map fun f => (.text f.1, f.2)))).Yields o ↔
      ∃ item, o = some item ∧
        NavItem.DeclaredBy (.mapping kind (fields.map fun f => (.text f.1, f.2))) item := by
  have hfields : (Value.mapping kind (fields.map fun f => (.text f.1, f.2))).fields? =
      some fields := Value.fields?_eq_some_iff.mpr ⟨kind, rfl⟩
  have hkeyed : Value.textKeyed? (fields.map fun f => (.text f.1, f.2)) = some fields := hfields
  rw [navEntry, hkeyed]
  simp only [yields_bind, yields_unknownKeys, label_yields]
  constructor
  · rintro ⟨_, -, _, ⟨text, htext, rfl⟩, hy⟩
    cases hl : fields.given? "link" with
    | some link =>
      cases hi : fields.given? "items" with
      | some w => simp [hl, hi] at hy
      | none =>
        simp only [hl, hi, Option.isSome_none, yields_bind, entryLink_yields, yields_pure] at hy
        obtain ⟨_, ⟨raw, rfl, hraw, rfl⟩, rfl⟩ := hy
        exact ⟨_, rfl, .link hfields htext ⟨(Fields.given?_eq_some_iff.mp hl).1, hraw⟩ hi⟩
    | none =>
      cases hi : fields.given? "items" with
      | none => simp [hl, hi] at hy
      | some w =>
        have hget := (Fields.given?_eq_some_iff.mp hi).1
        simp only [hl, hi, Option.isSome_some, navBelow_eq hget, yields_bind, h w hget] at hy
        obtain ⟨_, ⟨l, rfl, values, hvalues, hl'⟩, hy⟩ := hy
        have hbelow := (h w hget (fieldPath path "items") _).mpr ⟨l, rfl, values, hvalues, hl'⟩
        cases l with
        | nil => simp [hbelow.findings] at hy
        | cons item rest =>
          simp only [hbelow.findings, List.isEmpty_nil, if_true, yields_pure] at hy
          exact ⟨_, hy, .menu hfields htext hl hi hvalues hl' (by simp)⟩
  · rintro ⟨item, rfl, hd⟩
    cases hd with
    | link hf htext hlink hi =>
      obtain rfl := Option.some.inj (hfields.symm.trans hf)
      have hl := Fields.given?_eq_some_iff.mpr ⟨hlink.1, by simp⟩
      refine ⟨(), trivial, _, ⟨_, htext, rfl⟩, ?_⟩
      simp only [hl, hi, Option.isSome_none, yields_bind, entryLink_yields, yields_pure]
      exact ⟨_, ⟨_, rfl, hlink.2, rfl⟩, rfl⟩
    | menu hf htext hl hi hvalues hitems hne =>
      obtain rfl := Option.some.inj (hfields.symm.trans hf)
      have hget := (Fields.given?_eq_some_iff.mp hi).1
      have hbelow := (h _ hget (fieldPath path "items") _).mpr ⟨_, rfl, _, hvalues, hitems⟩
      refine ⟨(), trivial, _, ⟨_, htext, rfl⟩, ?_⟩
      simp only [hl, hi, Option.isSome_some, navBelow_eq hget, yields_bind]
      refine ⟨_, hbelow, ?_⟩
      obtain ⟨item, rest, rfl⟩ := List.exists_cons_of_ne_nil hne
      simp [hbelow.findings]

theorem navEntry_nav_yields (v : Value) :
    (∀ path o, (navEntry path v).Yields o ↔ ∃ item, o = some item ∧ NavItem.DeclaredBy v item) ∧
      ∀ path o, (nav path v).Yields o ↔ ∃ l, o = some l ∧ v.ListOf NavItem.DeclaredBy l := by
  -- an entry looks at the sequence in its field, and a sequence at its entries
  induction v with
  | scalar s =>
    have hno : ∀ item, ¬NavItem.DeclaredBy (.scalar s) item :=
      fun _ => not_declaredBy_of_fields? rfl
    refine ⟨fun path o => ?_, fun path o => ?_⟩
    · rw [navEntry] <;> simp [hno]
    · rw [nav] <;> simp [Value.ListOf, Value.items?]
  | sequence kind items ih =>
    have hno : ∀ item, ¬NavItem.DeclaredBy (.sequence kind items) item :=
      fun _ => not_declaredBy_of_fields? rfl
    refine ⟨fun path o => ?_, fun path o => ?_⟩
    · rw [navEntry] <;> simp [hno]
    · rw [nav]
      simp [navFrom_yields fun v hv => (ih v hv).1, Value.ListOf, Value.items?, and_comm]
  | mapping kind entries ih =>
    refine ⟨fun path o => ?_, fun path o => ?_⟩
    · cases hf : Value.textKeyed? entries with
      | none =>
        have hno : ∀ item, ¬NavItem.DeclaredBy (.mapping kind entries) item :=
          fun _ => not_declaredBy_of_fields? hf
        rw [navEntry, hf]
        simp [hno]
      | some fields =>
        obtain rfl := Value.textKeyed?_eq_some_iff.mp hf
        apply navEntry_mapping_yields
        intro w hw
        exact (ih (.text "items", w) (List.mem_map.mpr ⟨_, Fields.mem_of_get? hw, rfl⟩)).2
    · rw [nav] <;> simp [Value.ListOf, Value.items?]

theorem nav_reads : Reads nav (Value.ListOf NavItem.DeclaredBy) :=
  fun path v o => (navEntry_nav_yields v).2 path o

theorem sidebarItem_reads : Reads sidebarItem SidebarItem.DeclaredBy := by
  intro path v o
  rw [sidebarItem]
  cases hv : v.fields? with
  | none =>
    have hno : ∀ item, ¬SidebarItem.DeclaredBy v item := by
      intro item h
      cases h
      simp_all
    simp [hno]
  | some fields =>
    simp only [yields_bind, yields_unknownKeys, label_yields]
    constructor
    · rintro ⟨_, -, _, ⟨text, htext, rfl⟩, hy⟩
      cases hl : nonBlank? (fields.get? "link") with
      | none => simp [hl] at hy
      | some link =>
        simp only [hl, yields_pure] at hy
        exact ⟨_, hy, .mk hv htext (nonBlank?_eq_some_iff.mp hl)⟩
    · rintro ⟨item, rfl, hd⟩
      cases hd with
      | mk hf htext hlink =>
        obtain rfl := Option.some.inj (hv.symm.trans hf)
        refine ⟨(), trivial, _, ⟨_, htext, rfl⟩, ?_⟩
        simp [nonBlank?_eq_some_iff.mpr hlink]

theorem collapsedMark_yields {path : String} {isLink : Bool} {v : Option Value}
    {o : Option Bool} :
    (collapsedMark path isLink v).Yields o ↔
      ∃ mark : Option Bool, v = mark.map .bool ∧ o = if isLink then none else mark := by
  unfold collapsedMark
  cases v with
  | none =>
    constructor
    · intro h
      exact ⟨none, rfl, by simpa using h⟩
    · rintro ⟨mark, hm, rfl⟩
      obtain rfl : mark = none := by simpa using hm.symm
      simp
  | some w =>
    cases hb : w.bool? with
    | none =>
      have hno : ∀ mark : Option Bool, some w ≠ mark.map .bool := by
        intro mark hm
        obtain ⟨b, _, rfl⟩ := Option.map_eq_some_iff.mp hm.symm
        simp [Value.bool?] at hb
      simp [hb, hno]
    | some b =>
      obtain rfl := Value.bool?_eq_some_iff.mp hb
      constructor
      · intro h
        refine ⟨some b, rfl, ?_⟩
        cases isLink <;> simpa [Value.bool?] using h
      · rintro ⟨mark, hm, rfl⟩
        obtain rfl : mark = some b := by
          obtain ⟨c, rfl, hc⟩ := Option.map_eq_some_iff.mp hm.symm
          simpa using hc
        cases isLink <;> simp [Value.bool?]

theorem groupItems_reads :
    Reads groupItems fun v l => v.ListOf SidebarItem.DeclaredBy l ∧ l ≠ [] := by
  intro path v o
  rw [groupItems]
  simp only [Value.ListOf]
  cases v.items? with
  | none => simp
  | some items =>
    cases items with
    | nil => simp
    | cons first others =>
      simp only [yields_bind, collectFrom_yields sidebarItem_reads, yields_pure, Option.some.injEq,
        exists_eq_left']
      constructor
      · rintro ⟨l, hl, rfl⟩
        refine ⟨l, rfl, hl, ?_⟩
        rintro rfl
        cases hl
      · rintro ⟨l, rfl, hl, _⟩
        exact ⟨l, hl, rfl⟩

theorem sidebarGroup_reads : Reads sidebarGroup SidebarGroup.DeclaredBy := by
  intro path v o
  rw [sidebarGroup]
  cases hv : v.fields? with
  | none =>
    have hno : ∀ group, ¬SidebarGroup.DeclaredBy v group := by
      intro group h
      cases h <;> simp_all
    simp [hno]
  | some fields =>
    simp only [yields_bind, yields_unknownKeys, label_yields]
    constructor
    · rintro ⟨_, -, _, ⟨text, htext, rfl⟩, hy⟩
      cases hl : fields.given? "link" with
      | some link =>
        cases hi : fields.given? "items" with
        | some w => simp [hl, hi] at hy
        | none =>
          simp only [hl, hi, yields_bind, collapsedMark_yields, entryLink_yields, yields_pure,
            if_true] at hy
          obtain ⟨_, ⟨mark, hmark, rfl⟩, _, ⟨raw, rfl, hraw, rfl⟩, rfl⟩ := hy
          exact ⟨_, rfl, .link hv htext ⟨(Fields.given?_eq_some_iff.mp hl).1, hraw⟩ hi hmark⟩
      | none =>
        cases hi : fields.given? "items" with
        | none => simp [hl, hi] at hy
        | some w =>
          simp only [hl, hi, yields_bind, collapsedMark_yields, groupItems_reads _ w, yields_pure,
            Bool.false_eq_true, if_false] at hy
          obtain ⟨_, ⟨mark, hmark, rfl⟩, _, ⟨items, rfl, hitems, hne⟩, rfl⟩ := hy
          exact ⟨_, rfl, .group hv htext hl hi hitems hne hmark⟩
    · rintro ⟨group, rfl, hd⟩
      cases hd with
      | link hf htext hlink hi hmark =>
        obtain rfl := Option.some.inj (hv.symm.trans hf)
        have hl := Fields.given?_eq_some_iff.mpr ⟨hlink.1, by simp⟩
        refine ⟨(), trivial, _, ⟨_, htext, rfl⟩, ?_⟩
        simp only [hl, hi, yields_bind, collapsedMark_yields, entryLink_yields, yields_pure,
          if_true]
        exact ⟨_, ⟨_, hmark, rfl⟩, _, ⟨_, rfl, hlink.2, rfl⟩, rfl⟩
      | group hf htext hl hi hitems hne hmark =>
        obtain rfl := Option.some.inj (hv.symm.trans hf)
        refine ⟨(), trivial, _, ⟨_, htext, rfl⟩, ?_⟩
        simp only [hl, hi, yields_bind, collapsedMark_yields, yields_pure, Bool.false_eq_true,
          if_false]
        exact ⟨_, ⟨_, hmark, rfl⟩, _, (groupItems_reads _ _ _).mpr ⟨_, rfl, hitems, hne⟩, rfl⟩

theorem socialTarget_yields {path : String} {v : Option Value} {o : Option String} :
    (socialTarget path v).Yields o ↔
      ∃ link, v = some (.text link) ∧ Link.isAbsoluteUrl link ∧ o = some link := by
  rw [socialTarget]
  cases h : v.bind Value.text? with
  | none => simp [Value.bind_text?_eq_none_iff.mp h]
  | some link =>
    obtain rfl := Value.bind_text?_eq_some_iff.mp h
    by_cases hu : Link.isAbsoluteUrl link <;> simp [hu]

theorem socialLink_reads : Reads socialLink SocialLink.DeclaredBy := by
  intro path v o
  rw [socialLink]
  cases hv : v.fields? with
  | none =>
    have hno : ∀ link, ¬SocialLink.DeclaredBy v link := by
      intro link h
      cases h
      simp_all
    simp [hno]
  | some fields =>
    simp only [yields_bind, yields_unknownKeys, oneOf_yields, socialTarget_yields, yields_pure]
    constructor
    · rintro ⟨_, -, _, ⟨icon, hicon, hknown, rfl⟩, _, ⟨link, hlink, hurl, rfl⟩, rfl⟩
      exact ⟨_, rfl, .mk hv hicon hknown hlink hurl⟩
    · rintro ⟨_, rfl, hd⟩
      cases hd with
      | mk hf hicon hknown hlink hurl =>
        obtain rfl := Option.some.inj (hv.symm.trans hf)
        exact ⟨(), trivial, _, ⟨_, hicon, hknown, rfl⟩, _, ⟨_, hlink, hurl, rfl⟩, rfl⟩

theorem searchOptions_yields {path provider : String} {v : Option Value} {o : Option Search} :
    (searchOptions path provider v).Yields o ↔
      ∃ options, Option.Rel Value.TextsOf v options ∧
        (provider = externalProvider → (options.getD .empty).isEmpty = false) ∧
        o = some ⟨provider, options.getD .empty⟩ := by
  have hfinish : ∀ options, (searchOptions.finish path provider options).Yields o ↔
      (provider = externalProvider → options.isEmpty = false) ∧ o = some ⟨provider, options⟩ := by
    intro options
    rw [searchOptions.finish]
    by_cases hp : provider = externalProvider <;> cases he : options.isEmpty <;> simp [hp]
  unfold searchOptions
  cases v with
  | none => simp [hfinish]
  | some w =>
    simp only [yields_bind, textMap_reads _ w, rel_some_iff]
    constructor
    · rintro ⟨_, ⟨options, rfl, hw⟩, hy⟩
      exact ⟨some options, ⟨options, rfl, hw⟩, (hfinish options).mp hy⟩
    · rintro ⟨_, ⟨options, rfl, hw⟩, hy⟩
      exact ⟨some options, ⟨options, rfl, hw⟩, (hfinish options).mpr hy⟩

theorem search_reads : Reads search Search.DeclaredBy := by
  intro path v o
  rw [search]
  cases hv : v.fields? with
  | none =>
    have hno : ∀ s, ¬Search.DeclaredBy v s := by
      intro s h
      cases h
      simp_all
    simp [hno]
  | some fields =>
    simp only [yields_bind, yields_unknownKeys, oneOf_yields]
    constructor
    · rintro ⟨_, -, _, ⟨provider, hget, hknown, rfl⟩, hy⟩
      obtain ⟨options, hoptions, hneed, rfl⟩ := searchOptions_yields.mp hy
      exact ⟨_, rfl, .mk hv hget hknown hoptions hneed⟩
    · rintro ⟨_, rfl, hd⟩
      cases hd with
      | mk hf hget hknown hoptions hneed =>
        obtain rfl := Option.some.inj (hv.symm.trans hf)
        exact ⟨(), trivial, _, ⟨_, hget, hknown, rfl⟩,
          searchOptions_yields.mpr ⟨_, hoptions, hneed, rfl⟩⟩

theorem footer_reads : Reads footer Footer.DeclaredBy := by
  intro path v o
  rw [footer]
  cases hv : v.fields? with
  | none =>
    have hno : ∀ f, ¬Footer.DeclaredBy v f := by
      intro f h
      cases h
      simp_all
    simp [hno]
  | some fields =>
    simp only [yields_bind, yields_unknownKeys, optionalText_yields, yields_pure]
    constructor
    · rintro ⟨_, -, _, ⟨message, hm, rfl⟩, _, ⟨copyright, hc, rfl⟩, rfl⟩
      exact ⟨_, rfl, .mk hv hm hc⟩
    · rintro ⟨_, rfl, hd⟩
      cases hd with
      | mk hf hm hc =>
        obtain rfl := Option.some.inj (hv.symm.trans hf)
        exact ⟨(), trivial, _, ⟨_, hm, rfl⟩, _, ⟨_, hc, rfl⟩, rfl⟩

theorem style_yields {path : String} {fields : Fields} {key standard s : String} :
    (style path fields key standard).Yields s ↔ fields.StyleBy key standard s := by
  rw [style, Fields.StyleBy]
  cases h : fields.given? key with
  | none =>
    constructor
    · intro hs
      exact ⟨none, rfl, by simp, by simpa using hs⟩
    · rintro ⟨chosen, hc, _, rfl⟩
      obtain rfl : chosen = none := by simpa using hc.symm
      simp
  | some v =>
    simp only [yields_bind, oneOf_yields, yields_pure, Option.some.injEq]
    constructor
    · rintro ⟨_, ⟨word, hv, hw, rfl⟩, hs⟩
      exact ⟨some word, congrArg some hv, by simpa using hw, hs⟩
    · rintro ⟨chosen, hc, hw, rfl⟩
      obtain ⟨word, rfl, hv⟩ := Option.map_eq_some_iff.mp hc.symm
      exact ⟨_, ⟨word, hv.symm, hw word rfl, rfl⟩, rfl⟩

theorem stampStyles_yields {path : String} {stamp : LastUpdated} {v : Option Value}
    {o : Option LastUpdated} :
    (stampStyles path stamp v).Yields o ↔
      ∃ (format : Option Fields) (dateStyle timeStyle : String),
        Option.Rel (fun w f => Value.fields? w = some f) v format ∧
        (format.getD []).StyleBy "dateStyle" stamp.dateStyle dateStyle ∧
        (format.getD []).StyleBy "timeStyle" stamp.timeStyle timeStyle ∧
        o = some ⟨stamp.text, dateStyle, timeStyle⟩ := by
  have hempty : ∀ key standard s, Fields.StyleBy [] key standard s ↔ s = standard := by
    intro key standard s
    rw [← @style_yields path, style]
    simp [Fields.given?, Fields.get?]
  unfold stampStyles
  cases v with
  | none => simp [hempty]
  | some w =>
    cases hw : w.fields? with
    | none => simp [hw]
    | some fields =>
      simp only [hw, yields_bind, yields_unknownKeys, style_yields, yields_pure, rel_some_iff,
        Option.some.injEq]
      constructor
      · rintro ⟨_, -, dateStyle, hd, timeStyle, ht, rfl⟩
        exact ⟨_, dateStyle, timeStyle, ⟨fields, rfl, rfl⟩, hd, ht, rfl⟩
      · rintro ⟨_, dateStyle, timeStyle, ⟨_, rfl, rfl⟩, hd, ht, rfl⟩
        exact ⟨(), trivial, dateStyle, hd, timeStyle, ht, rfl⟩

theorem lastUpdated_yields {path : String} {v : Value} {o : Option LastUpdated} :
    (lastUpdated path v).Yields o ↔ LastUpdated.DeclaredBy v o := by
  constructor
  · intro h
    unfold lastUpdated at h
    split at h
    case h_1 hb =>
      obtain rfl := Value.bool?_eq_some_iff.mp hb
      obtain rfl := yields_pure.mp h
      exact .on
    case h_2 hb =>
      obtain rfl := Value.bool?_eq_some_iff.mp hb
      obtain rfl := yields_pure.mp h
      exact .off
    case h_3 => simp at h
    case h_4 fields hb hv =>
      simp only [yields_bind, yields_unknownKeys, optionalText_yields, stampStyles_yields] at h
      obtain ⟨_, -, _, ⟨text, htext, rfl⟩, format, dateStyle, timeStyle, hf, hd, ht, rfl⟩ := h
      exact .described hv htext hf hd ht
  · intro h
    cases h with
    | on => exact yields_pure.mpr rfl
    | off => exact yields_pure.mpr rfl
    | described hv htext hf hd ht =>
      have hb : v.bool? = none := by
        obtain ⟨kind, rfl⟩ := Value.fields?_eq_some_iff.mp hv
        rfl
      simp only [lastUpdated, hb, hv, yields_bind, yields_unknownKeys, optionalText_yields,
        stampStyles_yields]
      exact ⟨(), trivial, _, ⟨_, htext, rfl⟩, _, _, _, hf, hd, ht, rfl⟩

theorem logo_yields {path : String} {fields : Fields} {s : String} :
    (logo path fields).Yields s ↔ Theme.LogoBy fields s := by
  simp only [logo, yields_bind, optionalText_yields, yields_pure]
  constructor
  · rintro ⟨_, ⟨link, hlink, rfl⟩, rfl⟩
    cases link with
    | none => exact .absent hlink
    | some raw =>
      have hget := (Fields.given?_eq_some_iff.mp hlink).1
      by_cases hb : Text.trim raw = ""
      · simpa [hb] using Theme.LogoBy.blank hget (Text.trim_eq_empty_iff.mp hb)
      · simpa [hb] using Theme.LogoBy.link ⟨hget, fun h => hb (Text.trim_eq_empty_iff.mpr h)⟩
  · intro h
    cases h with
    | absent h => exact ⟨_, ⟨none, h, rfl⟩, rfl⟩
    | blank hget hb =>
      refine ⟨_, ⟨some _, Fields.given?_eq_some_iff.mpr ⟨hget, by simp⟩, rfl⟩, ?_⟩
      simp [Text.trim_eq_empty_iff.mpr hb]
    | link hs =>
      refine ⟨_, ⟨some _, Fields.given?_eq_some_iff.mpr ⟨hs.1, by simp⟩, rfl⟩, ?_⟩
      simp [Text.trim_eq_empty_iff, hs.2]

theorem theme_yields {path : String} {fields : Fields} {t : Theme} :
    (theme path fields).Yields t ↔ Theme.DeclaredBy fields t := by
  have hlast : ∀ o, (optionalField path fields "lastUpdated" lastUpdated).Yields o ↔
      match fields.given? "lastUpdated" with
      | none => o = none
      | some v => LastUpdated.DeclaredBy v o := by
    intro o
    rw [optionalField]
    cases fields.given? "lastUpdated" <;> simp [lastUpdated_yields]
  simp only [theme, yields_bind, yields_unknownKeys, logo_yields, optionalField_yields nav_reads,
    optionalField_yields (sequenceOf_reads sidebarGroup_reads),
    optionalField_yields (sequenceOf_reads socialLink_reads), optionalField_yields search_reads,
    optionalField_yields footer_reads, hlast, yields_pure]
  constructor
  · rintro ⟨_, -, _, h1, _, h2, _, h3, _, h4, _, h5, _, h6, _, h7, rfl⟩
    exact ⟨h1, h2, h3, h4, h5, h6, h7⟩
  · rintro ⟨h1, h2, h3, h4, h5, h6, h7⟩
    exact ⟨(), trivial, _, h1, _, h2, _, h3, _, h4, _, h5, _, h6, _, h7, rfl⟩

theorem themeSection_reads :
    Reads themeSection fun v t => ∃ f : Fields, v.fields? = some f ∧ Theme.DeclaredBy f t := by
  intro path v o
  rw [themeSection]
  cases hv : v.fields? with
  | none => simp [hv]
  | some fields => simp [hv, theme_yields, and_comm]

theorem site_yields {fields : Fields} {s : Site} :
    (site fields).Yields s ↔ Site.DeclaredBy fields s := by
  simp only [site, yields_bind, yields_unknownKeys, requiredText_yields, optionalText_yields,
    optionalField_yields (sequenceOf_reads headTag_reads), optionalField_yields themeSection_reads,
    yields_pure]
  constructor
  · rintro ⟨_, -, _, h1, _, h2, _, ⟨lang, hlang, rfl⟩, _, h4, t, h5, rfl⟩
    exact ⟨h1, h2, ⟨lang, hlang, rfl⟩, h4, t, h5, rfl⟩
  · rintro ⟨h1, h2, ⟨lang, hlang, h3⟩, h4, t, h5, h6⟩
    refine ⟨(), trivial, _, h1, _, h2, _, ⟨lang, hlang, rfl⟩, _, h4, t, h5, ?_⟩
    rw [← h3, ← h6]

end Schema

end DocSite
