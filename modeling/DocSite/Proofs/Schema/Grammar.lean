import DocSite.Proofs.Site.Sidebar

/-!
The grammar of declarations, stated on the values alone. A declaration is accepted exactly when it
belongs to the grammar: for every part, some part is declared by a value exactly when the value has
the form the grammar asks for. Keys that the grammar does not mention are free.
-/

namespace DocSite

namespace Fields

def Absent (fields : Fields) (key : String) : Prop :=
  ∀ v, fields.get? key = some v → v = .null

def Required (fields : Fields) (key : String) (P : Value → Prop) : Prop :=
  ∃ v, fields.get? key = some v ∧ P v

def Optional (fields : Fields) (key : String) (P : Value → Prop) : Prop :=
  fields.Absent key ∨ fields.Required key P

end Fields

namespace Value

def IsText (v : Value) : Prop := ∃ s, v = .text s

def IsNonBlank (v : Value) : Prop := ∃ s, v = .text s ∧ ¬Text.isBlankText s

def IsBool (v : Value) : Prop := ∃ b, v = .bool b

def IsWord (known : List String) (v : Value) : Prop := ∃ s ∈ known, v = .text s

inductive IsScalar : Value → Prop
  | text (s : String) : IsScalar (.text s)
  | bool (b : Bool) : IsScalar (.bool b)
  | integer {width : IntWidth} (i : Int) :
    width ≠ .other → IsScalar (.scalar (.integer width i))
  | float (x : Binary64) : IsScalar (.scalar (.float x))

def IsRecord (P : Fields → Prop) (v : Value) : Prop :=
  ∃ fields, v.fields? = some fields ∧ P fields

def IsSequence (P : Value → Prop) (v : Value) : Prop :=
  ∃ items, v.items? = some items ∧ ∀ w ∈ items, P w

def IsNonEmptySequence (P : Value → Prop) (v : Value) : Prop :=
  ∃ items, v.items? = some items ∧ items ≠ [] ∧ ∀ w ∈ items, P w

def IsScalarMap : Value → Prop :=
  IsRecord fun fields => ∀ key w, fields.get? key = some w → w.IsScalar

end Value

open Value

inductive HeadTag.Grammar : Value → Prop
  | mapping {v : Value} {fields : Fields} :
    v.fields? = some fields → fields.Required "tagName" IsNonBlank →
      fields.Optional "attributes" IsScalarMap → HeadTag.Grammar v
  | single {v name : Value} : v.items? = some [name] → IsNonBlank name → HeadTag.Grammar v
  | pair {v name attributes : Value} :
    v.items? = some [name, attributes] → IsNonBlank name →
      attributes = .null ∨ IsScalarMap attributes → HeadTag.Grammar v

inductive NavItem.Grammar : Value → Prop
  | link {v : Value} {fields : Fields} :
    v.fields? = some fields → fields.Required "text" IsNonBlank →
      fields.Required "link" IsNonBlank → fields.Absent "items" → NavItem.Grammar v
  | menu {v w : Value} {fields : Fields} {items : List Value} :
    v.fields? = some fields → fields.Required "text" IsNonBlank → fields.Absent "link" →
      fields.get? "items" = some w → w.items? = some items → items ≠ [] →
      (∀ i ∈ items, NavItem.Grammar i) → NavItem.Grammar v

def SidebarItem.Grammar : Value → Prop :=
  IsRecord fun fields => fields.Required "text" IsNonBlank ∧ fields.Required "link" IsNonBlank

def SidebarGroup.Grammar : Value → Prop :=
  IsRecord fun fields => fields.Required "text" IsNonBlank ∧ fields.Optional "collapsed" IsBool ∧
    (fields.Required "link" IsNonBlank ∧ fields.Absent "items" ∨
      fields.Absent "link" ∧ fields.Required "items" (IsNonEmptySequence SidebarItem.Grammar))

def SocialLink.Grammar : Value → Prop :=
  IsRecord fun fields => fields.Required "icon" (IsWord knownIcons) ∧
    fields.Required "link" fun v => ∃ s, v = .text s ∧ Link.isAbsoluteUrl s

def Search.Grammar : Value → Prop :=
  IsRecord fun fields => fields.Required "provider" (IsWord knownProviders) ∧
    fields.Optional "options" IsScalarMap ∧
    (fields.get? "provider" = some (.text externalProvider) →
      fields.Required "options" (IsRecord fun options => options ≠ []))

def Footer.Grammar : Value → Prop :=
  IsRecord fun fields => fields.Optional "message" IsText ∧ fields.Optional "copyright" IsText

def LastUpdated.Grammar (v : Value) : Prop :=
  v.IsBool ∨ v.IsRecord fun fields => fields.Optional "text" IsText ∧
    fields.Optional "formatOptions" (IsRecord fun format =>
      format.Optional "dateStyle" (IsWord knownStyles) ∧
      format.Optional "timeStyle" (IsWord knownStyles))

structure Theme.Grammar (fields : Fields) : Prop where
  logo : fields.Optional "logo" IsText
  nav : fields.Optional "nav" (IsSequence NavItem.Grammar)
  sidebar : fields.Optional "sidebar" (IsSequence SidebarGroup.Grammar)
  socialLinks : fields.Optional "socialLinks" (IsSequence SocialLink.Grammar)
  search : fields.Optional "search" Search.Grammar
  footer : fields.Optional "footer" Footer.Grammar
  lastUpdated : fields.Optional "lastUpdated" LastUpdated.Grammar

def Value.linkText? (v : Value) : Option String :=
  (v.fields?.bind (·.get? "link")).bind Value.text?

def Value.entryLinks (v : Value) : List String :=
  v.linkText?.toList ++
    (((v.fields?.bind (·.get? "items")).bind Value.items?).getD []).filterMap Value.linkText?

def Fields.declaredLinks (fields : Fields) : List String :=
  ((((fields.get? "themeConfig").bind Value.fields?).bind (·.get? "sidebar")).bind
    Value.items?).getD [] |>.flatMap Value.entryLinks

/-- The grammar of declarations. Links are compared as they are stored and then compared, which
brings them into normal form twice. -/
structure Site.Grammar (fields : Fields) : Prop where
  title : fields.Required "title" IsNonBlank
  description : fields.Required "description" IsNonBlank
  lang : fields.Optional "lang" IsText
  head : fields.Optional "head" (IsSequence HeadTag.Grammar)
  theme : fields.Optional "themeConfig" (IsRecord Theme.Grammar)
  links : (fields.declaredLinks.map fun s => Link.normalize (Link.normalize s)).Nodup

namespace Fields

theorem absent_iff {fields : Fields} {key : String} :
    fields.Absent key ↔ fields.given? key = none := by
  rw [Absent, given?_eq_none_iff]
  cases fields.get? key <;> simp

theorem required_isNonBlank_iff {fields : Fields} {key : String} :
    fields.Required key IsNonBlank ↔ ∃ s, fields.HasText key s := by
  constructor
  · rintro ⟨_, hv, s, rfl, hs⟩
    exact ⟨s, hv, hs⟩
  · rintro ⟨s, hv, hs⟩
    exact ⟨_, hv, s, rfl, hs⟩

theorem exists_rel_given?_iff {R : Value → α → Prop} {P : Value → Prop}
    (h : ∀ v, (∃ a, R v a) ↔ P v) {fields : Fields} {key : String} :
    (∃ o, Option.Rel R (fields.given? key) o) ↔ fields.Optional key P := by
  rw [Optional, absent_iff, Required]
  cases hg : fields.given? key with
  | none => simp
  | some v =>
    have hget := (given?_eq_some_iff.mp hg).1
    simp only [rel_some_iff, reduceCtorEq, false_or, hget, Option.some.injEq, exists_eq_left',
      ← h v]
    constructor
    · rintro ⟨_, a, rfl, ha⟩
      exact ⟨a, ha⟩
    · rintro ⟨a, ha⟩
      exact ⟨_, a, rfl, ha⟩

theorem exists_given?_eq_map_iff {c : α → Value} {fields : Fields} {key : String} :
    (∃ o : Option α, fields.given? key = o.map c) ↔
      fields.Optional key fun v => ∃ a, v = c a := by
  rw [← exists_rel_given?_iff fun v => Iff.rfl]
  have hrel : ∀ o : Option α, Option.Rel (fun v a => v = c a) (fields.given? key) o ↔
      fields.given? key = o.map c := by
    intro o
    cases fields.given? key <;> cases o <;> simp
  simp only [hrel]

theorem optional_isText_iff {fields : Fields} {key : String} :
    fields.Optional key IsText ↔ ∃ s : Option String, fields.given? key = s.map .text :=
  exists_given?_eq_map_iff.symm

theorem optional_isBool_iff {fields : Fields} {key : String} :
    fields.Optional key IsBool ↔ ∃ b : Option Bool, fields.given? key = b.map .bool :=
  exists_given?_eq_map_iff.symm

end Fields

theorem Value.exists_listOf_iff {R : Value → α → Prop} {P : Value → Prop}
    (h : ∀ v, (∃ a, R v a) ↔ P v) {v : Value} : (∃ l, v.ListOf R l) ↔ v.IsSequence P := by
  simp only [Value.ListOf, IsSequence, ← h]
  constructor
  · rintro ⟨l, items, hv, hl⟩
    exact ⟨items, hv, exists_forall₂_iff.mp ⟨l, hl⟩⟩
  · rintro ⟨items, hv, hall⟩
    obtain ⟨l, hl⟩ := exists_forall₂_iff.mpr hall
    exact ⟨l, items, hv, hl⟩

theorem Value.isScalar_iff {v : Value} : v.IsScalar ↔ ∃ s, v.scalarText? = some s := by
  constructor
  · intro h
    cases h with
    | text s => exact ⟨s, rfl⟩
    | bool b => exact ⟨_, rfl⟩
    | integer i hw => cases ‹IntWidth› <;> first | exact ⟨_, rfl⟩ | exact absurd rfl hw
    | float x => exact ⟨_, rfl⟩
  · rintro ⟨s, hs⟩
    unfold Value.scalarText? at hs
    split at hs
    · exact .text _
    · exact .bool _
    · cases hs
    · exact .integer _ (by assumption)
    · exact .float _
    · cases hs

theorem Value.exists_textsOf_iff {v : Value} : (∃ m, v.TextsOf m) ↔ v.IsScalarMap := by
  constructor
  · rintro ⟨m, fields, hv, hm⟩
    exact ⟨fields, hv, fun key w hw => isScalar_iff.mpr (Schema.exists_scalarText? hm key w hw)⟩
  · rintro ⟨fields, hv, hall⟩
    obtain ⟨l, hl⟩ := Schema.exists_scalarEntries fun key w hw => isScalar_iff.mp (hall key w hw)
    exact ⟨_, fields, hv, Schema.get?_ofList_scalarEntries hl⟩

theorem HeadTag.exists_partsBy_iff {name attributes : Option Value} :
    (∃ tag, HeadTag.PartsBy name attributes tag) ↔
      (∃ v ∈ name, IsNonBlank v) ∧ ∀ v ∈ attributes, v = .null ∨ v.IsScalarMap := by
  constructor
  · rintro ⟨_, ⟨rfl, hraw, htexts⟩⟩
    refine ⟨⟨_, rfl, _, rfl, hraw⟩, ?_⟩
    rintro v rfl
    by_cases hnull : v.isNull
    · exact .inl (Value.isNull_iff.mp hnull)
    · simp only [Option.filter_some, hnull, Bool.not_false, if_true, rel_some_iff] at htexts
      obtain ⟨m, _, hm⟩ := htexts
      exact .inr (Value.exists_textsOf_iff.mp ⟨m, hm⟩)
  · rintro ⟨⟨_, rfl, raw, rfl, hraw⟩, hall⟩
    obtain ⟨texts, htexts⟩ :
        ∃ texts, Option.Rel Value.TextsOf (attributes.filter fun v => !v.isNull) texts := by
      cases hf : attributes.filter fun v => !v.isNull with
      | none => exact ⟨none, .none⟩
      | some v =>
        obtain ⟨hv, hnull⟩ := Option.filter_eq_some_iff.mp hf
        rcases hall v hv with rfl | hmap
        · cases hnull
        · obtain ⟨m, hm⟩ := Value.exists_textsOf_iff.mpr hmap
          exact ⟨some m, .some hm⟩
    exact ⟨_, .mk rfl hraw htexts⟩

theorem HeadTag.exists_declaredBy_iff (v : Value) :
    (∃ tag, HeadTag.DeclaredBy v tag) ↔ HeadTag.Grammar v := by
  have hparts : (∃ tag, HeadTag.DeclaredBy v tag) ↔
      ∃ name attributes, HeadTag.Form v name attributes ∧
        (∃ v ∈ name, IsNonBlank v) ∧ ∀ v ∈ attributes, v = .null ∨ v.IsScalarMap := by
    simp only [HeadTag.DeclaredBy, ← HeadTag.exists_partsBy_iff]
    constructor
    · rintro ⟨tag, name, attributes, hf, hp⟩
      exact ⟨name, attributes, hf, tag, hp⟩
    · rintro ⟨name, attributes, hf, tag, hp⟩
      exact ⟨tag, name, attributes, hf, hp⟩
  have hoptional : ∀ fields : Fields,
      (∀ v ∈ fields.get? "attributes", v = .null ∨ v.IsScalarMap) ↔
        fields.Optional "attributes" IsScalarMap := by
    intro fields
    rw [Fields.Optional, Fields.Absent, Fields.Required]
    cases fields.get? "attributes" <;> simp
  rw [hparts]
  constructor
  · rintro ⟨_, _, hf, hname, hattributes⟩
    cases hf with
    | mapping hv => exact .mapping hv hname ((hoptional _).mp hattributes)
    | single hv => exact .single hv (by simpa using hname)
    | pair hv => exact .pair hv (by simpa using hname) (hattributes _ rfl)
  · intro h
    cases h with
    | mapping hv hname hattributes =>
      exact ⟨_, _, .mapping hv, hname, (hoptional _).mpr hattributes⟩
    | single hv hname => exact ⟨_, _, .single hv, ⟨_, rfl, hname⟩, by simp⟩
    | pair hv hname hattributes => exact ⟨_, _, .pair hv, ⟨_, rfl, hname⟩,
      by simpa using hattributes⟩

theorem NavItem.exists_declaredBy_mapping_iff {v : Value} {fields : Fields}
    (hv : v.fields? = some fields)
    (h : ∀ w items, fields.get? "items" = some w → w.items? = some items → ∀ i ∈ items,
      (∃ item, NavItem.DeclaredBy i item) ↔ NavItem.Grammar i) :
    (∃ item, NavItem.DeclaredBy v item) ↔ NavItem.Grammar v := by
  constructor
  · rintro ⟨_, hd⟩
    cases hd with
    | link hf htext hlink hi =>
      exact .link hf (Fields.required_isNonBlank_iff.mpr ⟨_, htext⟩)
        (Fields.required_isNonBlank_iff.mpr ⟨_, hlink⟩) (Fields.absent_iff.mpr hi)
    | menu hf htext hl hi hvalues hitems hne =>
      obtain rfl := Option.some.inj (hv.symm.trans hf)
      have hget := (Fields.given?_eq_some_iff.mp hi).1
      refine .menu hf (Fields.required_isNonBlank_iff.mpr ⟨_, htext⟩) (Fields.absent_iff.mpr hl)
        hget hvalues ?_ ?_
      · rintro rfl
        exact hne (List.forall₂_nil_left_iff.mp hitems)
      · intro i hmem
        exact (h _ _ hget hvalues i hmem).mp (exists_forall₂_iff.mp ⟨_, hitems⟩ i hmem)
  · intro hg
    cases hg with
    | link hf htext hlink hi =>
      obtain ⟨text, htext⟩ := Fields.required_isNonBlank_iff.mp htext
      obtain ⟨link, hlink⟩ := Fields.required_isNonBlank_iff.mp hlink
      exact ⟨_, .link hf htext hlink (Fields.absent_iff.mp hi)⟩
    | menu hf htext hl hget hvalues hne hall =>
      obtain rfl := Option.some.inj (hv.symm.trans hf)
      obtain ⟨text, htext⟩ := Fields.required_isNonBlank_iff.mp htext
      obtain ⟨items, hitems⟩ := exists_forall₂_iff.mpr fun i hmem =>
        (h _ _ hget hvalues i hmem).mpr (hall i hmem)
      have hi := Fields.given?_eq_some_iff.mpr ⟨hget, by rintro rfl; cases hvalues⟩
      refine ⟨_, .menu hf htext (Fields.absent_iff.mp hl) hi hvalues hitems ?_⟩
      rintro rfl
      exact hne (List.forall₂_nil_right_iff.mp hitems)

theorem NavItem.not_grammar_of_fields? {v : Value} (h : v.fields? = none) :
    ¬NavItem.Grammar v := by
  intro hg
  cases hg <;> simp_all

theorem NavItem.exists_declaredBy_iff (v : Value) :
    (∃ item, NavItem.DeclaredBy v item) ↔ NavItem.Grammar v := by
  -- the entries below an entry are two levels down, in the sequence under its key
  suffices h : ((∃ item, NavItem.DeclaredBy v item) ↔ NavItem.Grammar v) ∧
      ∀ items, v.items? = some items → ∀ i ∈ items,
        (∃ item, NavItem.DeclaredBy i item) ↔ NavItem.Grammar i from h.1
  have hno : ∀ w : Value, w.fields? = none →
      ((∃ item, NavItem.DeclaredBy w item) ↔ NavItem.Grammar w) := by
    intro w hw
    simp [Schema.not_declaredBy_of_fields? hw, not_grammar_of_fields? hw]
  induction v with
  | scalar s => exact ⟨hno _ rfl, by simp [Value.items?]⟩
  | sequence kind items ih =>
    refine ⟨hno _ rfl, ?_⟩
    rintro _ ⟨⟩ i hi
    exact (ih i hi).1
  | mapping kind entries ih =>
    refine ⟨?_, by simp [Value.items?]⟩
    cases hf : Value.textKeyed? entries with
    | none => exact hno _ hf
    | some fields =>
      apply exists_declaredBy_mapping_iff (v := .mapping kind entries) hf
      intro w items hw
      obtain rfl := Value.textKeyed?_eq_some_iff.mp hf
      exact (ih (.text "items", w) (List.mem_map.mpr ⟨_, Fields.mem_of_get? hw, rfl⟩)).2 items

theorem SidebarItem.exists_declaredBy_iff (v : Value) :
    (∃ item, SidebarItem.DeclaredBy v item) ↔ SidebarItem.Grammar v := by
  simp only [SidebarItem.Grammar, IsRecord, Fields.required_isNonBlank_iff]
  constructor
  · rintro ⟨_, ⟨hv, htext, hlink⟩⟩
    exact ⟨_, hv, ⟨_, htext⟩, ⟨_, hlink⟩⟩
  · rintro ⟨_, hv, ⟨_, htext⟩, ⟨_, hlink⟩⟩
    exact ⟨_, .mk hv htext hlink⟩

theorem SidebarItem.exists_listOf_iff {fields : Fields} :
    (∃ w items, fields.given? "items" = some w ∧ w.ListOf SidebarItem.DeclaredBy items ∧
      items ≠ []) ↔ fields.Required "items" (IsNonEmptySequence SidebarItem.Grammar) := by
  constructor
  · rintro ⟨w, l, hw, ⟨items, hitems, hl⟩, hne⟩
    refine ⟨w, (Fields.given?_eq_some_iff.mp hw).1, items, hitems, ?_, ?_⟩
    · rintro rfl
      exact hne (List.forall₂_nil_left_iff.mp hl)
    · intro i hi
      exact (exists_declaredBy_iff i).mp (exists_forall₂_iff.mp ⟨l, hl⟩ i hi)
  · rintro ⟨w, hw, items, hitems, hne, hall⟩
    obtain ⟨l, hl⟩ := exists_forall₂_iff.mpr fun i hi => (exists_declaredBy_iff i).mpr (hall i hi)
    refine ⟨w, l, Fields.given?_eq_some_iff.mpr ⟨hw, by rintro rfl; cases hitems⟩,
      ⟨items, hitems, hl⟩, ?_⟩
    rintro rfl
    exact hne (List.forall₂_nil_right_iff.mp hl)

theorem SidebarGroup.exists_declaredBy_iff (v : Value) :
    (∃ group, SidebarGroup.DeclaredBy v group) ↔ SidebarGroup.Grammar v := by
  simp only [SidebarGroup.Grammar, IsRecord, Fields.required_isNonBlank_iff,
    Fields.optional_isBool_iff, Fields.absent_iff, ← SidebarItem.exists_listOf_iff]
  constructor
  · rintro ⟨_, hd⟩
    cases hd with
    | link hv htext hlink hi hmark => exact ⟨_, hv, ⟨_, htext⟩, ⟨_, hmark⟩, .inl ⟨⟨_, hlink⟩, hi⟩⟩
    | group hv htext hl hi hitems hne hmark =>
      exact ⟨_, hv, ⟨_, htext⟩, ⟨_, hmark⟩, .inr ⟨hl, _, _, hi, hitems, hne⟩⟩
  · rintro ⟨_, hv, ⟨_, htext⟩, ⟨_, hmark⟩, ⟨⟨_, hlink⟩, hi⟩ | ⟨hl, _, _, hi, hitems, hne⟩⟩
    · exact ⟨_, .link hv htext hlink hi hmark⟩
    · exact ⟨_, .group hv htext hl hi hitems hne hmark⟩

theorem SocialLink.exists_declaredBy_iff (v : Value) :
    (∃ link, SocialLink.DeclaredBy v link) ↔ SocialLink.Grammar v := by
  constructor
  · rintro ⟨_, ⟨hv, hicon, hknown, hlink, hurl⟩⟩
    exact ⟨_, hv, ⟨_, hicon, _, hknown, rfl⟩, ⟨_, hlink, _, rfl, hurl⟩⟩
  · rintro ⟨_, hv, ⟨_, hicon, _, hknown, rfl⟩, ⟨_, hlink, _, rfl, hurl⟩⟩
    exact ⟨_, .mk hv hicon hknown hlink hurl⟩

theorem Value.TextsOf.isEmpty_iff {v : Value} {m : TextMap} (h : v.TextsOf m) :
    m.isEmpty = false ↔ v.IsRecord fun fields => fields ≠ [] := by
  obtain ⟨fields, hv, hm⟩ := h
  have hrecord : (v.IsRecord fun fields => fields ≠ []) ↔ fields ≠ [] := by
    simp [IsRecord, hv]
  have hkeys : ∀ key, (fields.get? key).isSome = (m.get? key).isSome := by
    intro key
    simpa using congrArg Option.isSome (hm key)
  rw [hrecord, TextMap.isEmpty, List.isEmpty_eq_false_iff]
  constructor
  · rintro hne rfl
    obtain ⟨e, r, he⟩ := List.exists_cons_of_ne_nil hne
    have hkey := hkeys e.1
    rw [TextMap.get?, he, Text.lookup_cons, if_pos rfl] at hkey
    cases hkey
  · rintro hne hnil
    obtain ⟨f, r, rfl⟩ := List.exists_cons_of_ne_nil hne
    have hkey := hkeys f.1
    rw [Fields.get?, Text.lookup_cons, if_pos rfl, TextMap.get?, hnil] at hkey
    cases hkey

theorem Search.options_isEmpty_iff {fields : Fields} {options : Option TextMap}
    (h : Option.Rel Value.TextsOf (fields.given? "options") options) :
    (options.getD .empty).isEmpty = false ↔
      fields.Required "options" (IsRecord fun options => options ≠ []) := by
  cases hg : fields.given? "options" with
  | none =>
    rw [hg, rel_none_iff] at h
    subst h
    constructor
    · intro hempty
      cases hempty
    · rintro ⟨v, hv, _, hrecord, _⟩
      obtain rfl := Fields.absent_iff.mpr hg v hv
      cases hrecord
  | some v =>
    rw [hg, rel_some_iff] at h
    obtain ⟨m, rfl, hm⟩ := h
    have hget := (Fields.given?_eq_some_iff.mp hg).1
    rw [Option.getD_some, hm.isEmpty_iff]
    simp [Fields.Required, hget]

theorem Search.exists_declaredBy_iff (v : Value) :
    (∃ search, Search.DeclaredBy v search) ↔ Search.Grammar v := by
  have hoptional : ∀ fields : Fields,
      (∃ options, Option.Rel Value.TextsOf (fields.given? "options") options) ↔
        fields.Optional "options" IsScalarMap :=
    fun fields => Fields.exists_rel_given?_iff fun _ => Value.exists_textsOf_iff
  constructor
  · rintro ⟨_, ⟨hv, hprovider, hknown, hoptions, hneed⟩⟩
    refine ⟨_, hv, ⟨_, hprovider, _, hknown, rfl⟩, (hoptional _).mp ⟨_, hoptions⟩, ?_⟩
    intro hexternal
    apply (options_isEmpty_iff hoptions).mp
    apply hneed
    simpa using hprovider.symm.trans hexternal
  · rintro ⟨fields, hv, ⟨_, hprovider, _, hknown, rfl⟩, hoptions, hneed⟩
    obtain ⟨options, hoptions⟩ := (hoptional _).mpr hoptions
    refine ⟨_, .mk hv hprovider hknown hoptions ?_⟩
    rintro rfl
    exact (options_isEmpty_iff hoptions).mpr (hneed hprovider)

theorem Footer.exists_declaredBy_iff (v : Value) :
    (∃ footer, Footer.DeclaredBy v footer) ↔ Footer.Grammar v := by
  simp only [Footer.Grammar, IsRecord, Fields.optional_isText_iff]
  constructor
  · rintro ⟨_, ⟨hv, hm, hc⟩⟩
    exact ⟨_, hv, ⟨_, hm⟩, ⟨_, hc⟩⟩
  · rintro ⟨_, hv, ⟨_, hm⟩, ⟨_, hc⟩⟩
    exact ⟨_, .mk hv hm hc⟩

theorem Fields.exists_styleBy_iff {fields : Fields} {key standard : String} :
    (∃ s, fields.StyleBy key standard s) ↔ fields.Optional key (IsWord knownStyles) := by
  rw [← Fields.exists_rel_given?_iff (R := fun v word => word ∈ knownStyles ∧ v = .text word)
    (P := IsWord knownStyles) fun v => Iff.rfl]
  simp only [Fields.StyleBy]
  cases fields.given? key with
  | none =>
    constructor
    · intro _
      exact ⟨none, .none⟩
    · intro _
      exact ⟨standard, none, rfl, by simp, rfl⟩
  | some v =>
    constructor
    · rintro ⟨_, chosen, hc, hknown, _⟩
      obtain ⟨word, rfl, hv⟩ := Option.map_eq_some_iff.mp hc.symm
      exact ⟨some word, .some ⟨hknown word rfl, hv.symm⟩⟩
    · rintro ⟨o, h⟩
      obtain ⟨word, rfl, hknown, rfl⟩ := rel_some_iff.mp h
      exact ⟨word, some word, rfl, by simpa using hknown, rfl⟩

theorem LastUpdated.exists_format_iff {fields : Fields} :
    (∃ (format : Option Fields) (dateStyle timeStyle : String),
      Option.Rel (fun w f => Value.fields? w = some f) (fields.given? "formatOptions") format ∧
      (format.getD []).StyleBy "dateStyle" LastUpdated.default.dateStyle dateStyle ∧
      (format.getD []).StyleBy "timeStyle" LastUpdated.default.timeStyle timeStyle) ↔
    fields.Optional "formatOptions" (IsRecord fun format =>
      format.Optional "dateStyle" (IsWord knownStyles) ∧
      format.Optional "timeStyle" (IsWord knownStyles)) := by
  rw [← Fields.exists_rel_given?_iff (P := IsRecord _) fun v => Iff.rfl]
  cases fields.given? "formatOptions" with
  | none =>
    constructor
    · intro _
      exact ⟨none, .none⟩
    · intro _
      exact ⟨none, _, _, .none, ⟨none, rfl, by simp, rfl⟩, ⟨none, rfl, by simp, rfl⟩⟩
  | some w =>
    constructor
    · rintro ⟨format, dateStyle, timeStyle, hf, hd, ht⟩
      obtain ⟨f, rfl, hw⟩ := rel_some_iff.mp hf
      exact ⟨some f, .some ⟨hw, Fields.exists_styleBy_iff.mp ⟨_, hd⟩,
        Fields.exists_styleBy_iff.mp ⟨_, ht⟩⟩⟩
    · rintro ⟨o, h⟩
      obtain ⟨f, rfl, hw, hd, ht⟩ := rel_some_iff.mp h
      obtain ⟨dateStyle, hd⟩ := Fields.exists_styleBy_iff.mpr hd
      obtain ⟨timeStyle, ht⟩ := Fields.exists_styleBy_iff.mpr ht
      exact ⟨some f, dateStyle, timeStyle, .some hw, hd, ht⟩

theorem LastUpdated.exists_declaredBy_iff (v : Value) :
    (∃ o, LastUpdated.DeclaredBy v o) ↔ LastUpdated.Grammar v := by
  simp only [LastUpdated.Grammar, IsRecord, Fields.optional_isText_iff]
  constructor
  · rintro ⟨_, hd⟩
    cases hd with
    | on => exact .inl ⟨true, rfl⟩
    | off => exact .inl ⟨false, rfl⟩
    | described hv htext hf hd ht =>
      exact .inr ⟨_, hv, ⟨_, htext⟩, exists_format_iff.mp ⟨_, _, _, hf, hd, ht⟩⟩
  · rintro (⟨b, rfl⟩ | ⟨_, hv, ⟨_, htext⟩, hf⟩)
    · cases b with
      | true => exact ⟨_, .on⟩
      | false => exact ⟨_, .off⟩
    · obtain ⟨_, _, _, hf, hd, ht⟩ := exists_format_iff.mpr hf
      exact ⟨_, .described hv htext hf hd ht⟩

theorem Theme.exists_logoBy_iff {fields : Fields} :
    (∃ logo, Theme.LogoBy fields logo) ↔ fields.Optional "logo" IsText := by
  constructor
  · rintro ⟨_, h⟩
    cases h with
    | absent h => exact .inl (Fields.absent_iff.mpr h)
    | blank hget _ => exact .inr ⟨_, hget, _, rfl⟩
    | link hs => exact .inr ⟨_, hs.1, _, rfl⟩
  · rintro (h | ⟨_, hget, s, rfl⟩)
    · exact ⟨_, .absent (Fields.absent_iff.mp h)⟩
    · by_cases hs : Text.isBlankText s
      · exact ⟨_, .blank hget hs⟩
      · exact ⟨_, .link ⟨hget, hs⟩⟩

theorem Theme.exists_lastUpdated_iff {fields : Fields} :
    (∃ o, match fields.given? "lastUpdated" with
      | none => o = none
      | some v => LastUpdated.DeclaredBy v o) ↔
      fields.Optional "lastUpdated" LastUpdated.Grammar := by
  rw [← Fields.exists_rel_given?_iff LastUpdated.exists_declaredBy_iff]
  cases fields.given? "lastUpdated" with
  | none => simp
  | some v => simp

theorem Fields.exists_rel_listOf_iff {R : Value → α → Prop} {P : Value → Prop}
    (h : ∀ v, (∃ a, R v a) ↔ P v) {fields : Fields} {key : String} :
    (∃ o, Option.Rel (Value.ListOf R) (fields.given? key) o) ↔
      fields.Optional key (IsSequence P) :=
  Fields.exists_rel_given?_iff fun _ => Value.exists_listOf_iff h

theorem Theme.exists_declaredBy_iff {fields : Fields} :
    (∃ theme, Theme.DeclaredBy fields theme) ↔ Theme.Grammar fields := by
  have hnav := @Fields.exists_rel_listOf_iff _ _ _ NavItem.exists_declaredBy_iff fields "nav"
  have hsidebar :=
    @Fields.exists_rel_listOf_iff _ _ _ SidebarGroup.exists_declaredBy_iff fields "sidebar"
  have hsocial :=
    @Fields.exists_rel_listOf_iff _ _ _ SocialLink.exists_declaredBy_iff fields "socialLinks"
  have hsearch := @Fields.exists_rel_given?_iff _ _ _ Search.exists_declaredBy_iff fields "search"
  have hfooter := @Fields.exists_rel_given?_iff _ _ _ Footer.exists_declaredBy_iff fields "footer"
  constructor
  · rintro ⟨theme, h⟩
    exact ⟨exists_logoBy_iff.mp ⟨_, h.logo⟩, hnav.mp ⟨_, h.nav⟩, hsidebar.mp ⟨_, h.sidebar⟩,
      hsocial.mp ⟨_, h.socialLinks⟩, hsearch.mp ⟨_, h.search⟩, hfooter.mp ⟨_, h.footer⟩,
      exists_lastUpdated_iff.mp ⟨_, h.lastUpdated⟩⟩
  · intro h
    obtain ⟨logo, h1⟩ := exists_logoBy_iff.mpr h.logo
    obtain ⟨nav, h2⟩ := hnav.mpr h.nav
    obtain ⟨sidebar, h3⟩ := hsidebar.mpr h.sidebar
    obtain ⟨socialLinks, h4⟩ := hsocial.mpr h.socialLinks
    obtain ⟨search, h5⟩ := hsearch.mpr h.search
    obtain ⟨footer, h6⟩ := hfooter.mpr h.footer
    obtain ⟨lastUpdated, h7⟩ := exists_lastUpdated_iff.mpr h.lastUpdated
    exact ⟨⟨logo, nav, sidebar, socialLinks, search, footer, lastUpdated⟩,
      h1, h2, h3, h4, h5, h6, h7⟩

theorem Site.exists_declaredBy_iff {fields : Fields} :
    (∃ site, Site.DeclaredBy fields site) ↔
      fields.Required "title" IsNonBlank ∧ fields.Required "description" IsNonBlank ∧
        fields.Optional "lang" IsText ∧ fields.Optional "head" (IsSequence HeadTag.Grammar) ∧
        fields.Optional "themeConfig" (IsRecord Theme.Grammar) := by
  have hhead := @Fields.exists_rel_listOf_iff _ _ _ HeadTag.exists_declaredBy_iff fields "head"
  have htheme : (∃ theme, Option.Rel
      (fun v t => ∃ f : Fields, v.fields? = some f ∧ Theme.DeclaredBy f t)
        (fields.given? "themeConfig") theme) ↔
      fields.Optional "themeConfig" (IsRecord Theme.Grammar) := by
    apply Fields.exists_rel_given?_iff
    intro v
    simp only [IsRecord, ← Theme.exists_declaredBy_iff]
    constructor
    · rintro ⟨t, f, hv, ht⟩
      exact ⟨f, hv, t, ht⟩
    · rintro ⟨f, hv, t, ht⟩
      exact ⟨t, f, hv, ht⟩
  rw [Fields.required_isNonBlank_iff, Fields.required_isNonBlank_iff, Fields.optional_isText_iff,
    ← hhead, ← htheme]
  constructor
  · rintro ⟨site, ⟨title, h1, _⟩, ⟨description, h2, _⟩, ⟨lang, h3, _⟩, h4, ⟨theme, h5, _⟩⟩
    exact ⟨⟨title, h1⟩, ⟨description, h2⟩, ⟨lang, h3⟩, ⟨_, h4⟩, ⟨theme, h5⟩⟩
  · rintro ⟨⟨title, h1⟩, ⟨description, h2⟩, ⟨lang, h3⟩, ⟨head, h4⟩, ⟨theme, h5⟩⟩
    exact ⟨⟨_, _, _, head, _⟩, ⟨title, h1, rfl⟩, ⟨description, h2, rfl⟩, ⟨lang, h3, rfl⟩, h4,
      ⟨theme, h5, rfl⟩⟩

theorem Fields.bind_get?_of_given?_eq_none {f : Value → Option α} (hf : f .null = none)
    {fields : Fields} {key : String} (h : fields.given? key = none) :
    (fields.get? key).bind f = none := by
  rcases Fields.given?_eq_none_iff.mp h with h | h
  · rw [h, Option.bind_none]
  · rw [h, Option.bind_some, hf]

theorem SidebarItem.DeclaredBy.linkText? {v : Value} {item : SidebarItem}
    (h : SidebarItem.DeclaredBy v item) : v.linkText?.map Link.normalize = some item.link := by
  cases h with
  | mk hv _ hlink => simp [Value.linkText?, hv, hlink.1, Value.text?]

theorem map_filterMap_linkText? {values : List Value} {items : List SidebarItem}
    (h : List.Forall₂ SidebarItem.DeclaredBy values items) :
    (values.filterMap Value.linkText?).map Link.normalize = items.map (·.link) := by
  induction h with
  | nil => rfl
  | cons hd _ ih =>
    obtain ⟨s, hs, hlink⟩ := Option.map_eq_some_iff.mp hd.linkText?
    rw [List.filterMap_cons_some hs, List.map_cons, List.map_cons, ih, hlink]

theorem SidebarGroup.DeclaredBy.links {v : Value} {group : SidebarGroup}
    (h : SidebarGroup.DeclaredBy v group) : group.links = v.entryLinks.map Link.normalize := by
  cases h with
  | link hv _ hlink hi _ =>
    have hitems := Fields.bind_get?_of_given?_eq_none (f := Value.items?) rfl hi
    simp [SidebarGroup.links, Link.normalize_ne_empty, Value.entryLinks, Value.linkText?, hv,
      hlink.1, Value.text?, hitems]
  | group hv _ hl hi hitems _ _ =>
    obtain ⟨values, hvalues, hall⟩ := hitems
    have hlink := Fields.bind_get?_of_given?_eq_none (f := Value.text?) rfl hl
    have hget := (Fields.given?_eq_some_iff.mp hi).1
    simp [SidebarGroup.links, Value.entryLinks, Value.linkText?, hv, hlink, hget, hvalues,
      ← map_filterMap_linkText? hall]

theorem sidebarLinks_eq_of_forall₂ {values : List Value} {sidebar : List SidebarGroup}
    (h : List.Forall₂ SidebarGroup.DeclaredBy values sidebar) :
    sidebarLinks sidebar = (values.flatMap Value.entryLinks).map Link.normalize := by
  induction h with
  | nil => rfl
  | cons hd _ ih =>
    rw [sidebarLinks] at ih ⊢
    rw [List.flatMap_cons, List.flatMap_cons, List.map_append, hd.links, ih]

theorem Site.DeclaredBy.sidebarLinks {fields : Fields} {site : Site} (h : site.DeclaredBy fields) :
    DocSite.sidebarLinks (site.theme.sidebar.getD []) =
      fields.declaredLinks.map Link.normalize := by
  obtain ⟨theme, hrel, ht⟩ := h.theme
  rw [ht, Fields.declaredLinks]
  cases hg : fields.given? "themeConfig" with
  | none =>
    rw [hg, rel_none_iff] at hrel
    rw [Fields.bind_get?_of_given?_eq_none (f := Value.fields?) rfl hg, hrel]
    rfl
  | some v =>
    rw [hg, rel_some_iff] at hrel
    obtain ⟨t, rfl, f, hf, hd⟩ := hrel
    rw [(Fields.given?_eq_some_iff.mp hg).1, Option.bind_some, hf, Option.bind_some,
      Option.getD_some]
    have hsidebar := hd.sidebar
    cases hs : f.given? "sidebar" with
    | none =>
      rw [hs, rel_none_iff] at hsidebar
      rw [Fields.bind_get?_of_given?_eq_none (f := Value.items?) rfl hs, hsidebar]
      rfl
    | some w =>
      rw [hs, rel_some_iff] at hsidebar
      obtain ⟨l, hl, values, hvalues, hall⟩ := hsidebar
      rw [(Fields.given?_eq_some_iff.mp hs).1, Option.bind_some, hvalues, hl, Option.getD_some,
        Option.getD_some, sidebarLinks_eq_of_forall₂ hall]

theorem Site.DeclaredBy.collisionFree_iff {fields : Fields} {site : Site}
    (h : site.DeclaredBy fields) :
    CollisionFree (site.theme.sidebar.getD []) ↔
      (fields.declaredLinks.map fun s => Link.normalize (Link.normalize s)).Nodup := by
  rw [CollisionFree, h.sidebarLinks, List.map_map]
  rfl

/-- A declaration is accepted exactly when it belongs to the grammar. -/
theorem build_accepts_iff (declaration : Fields) :
    (∃ r, build declaration = .ok r) ↔ Site.Grammar declaration := by
  constructor
  · rintro ⟨r, hr⟩
    obtain ⟨hd, hfree, _⟩ := build_eq_ok_iff.mp hr
    obtain ⟨h1, h2, h3, h4, h5⟩ := Site.exists_declaredBy_iff.mp ⟨_, hd⟩
    exact ⟨h1, h2, h3, h4, h5, hd.collisionFree_iff.mp hfree⟩
  · intro h
    obtain ⟨site, hd⟩ := Site.exists_declaredBy_iff.mpr
      ⟨h.title, h.description, h.lang, h.head, h.theme⟩
    exact ⟨⟨site, _⟩, build_eq_ok_iff.mpr ⟨hd, hd.collisionFree_iff.mpr h.links, rfl⟩⟩

end DocSite
