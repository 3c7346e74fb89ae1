import DocSite.Proofs.Schema.Declared
import DocSite.Proofs.Site.RoundTrip

namespace DocSite

/-- The first value says what the second one says, without its nulls. -/
inductive Value.Restates : Value → Value → Prop
  | scalar {s : Scalar} : s ≠ .null → Restates (.scalar s) (.scalar s)
  | sequence {k k' : SequenceKind} {a b : List Value} :
    List.Forall₂ Restates a b → Restates (.sequence k a) (.sequence k' b)
  | record {a b : Fields} :
    (∀ key, Option.Rel Restates (a.get? key) (b.given? key)) → Restates (.record a) (.record b)

def Fields.Restates (a b : Fields) : Prop :=
  ∀ key, Option.Rel Value.Restates (a.get? key) (b.given? key)

namespace Value.Restates

variable {a b : Value}

theorem text (s : String) : Restates (.text s) (.text s) := .scalar nofun

theorem bool (x : Bool) : Restates (.bool x) (.bool x) := .scalar nofun

theorem isNull (h : Restates a b) : a.isNull = false := by
  cases h with
  | @scalar s hs =>
    cases s with
    | null => exact absurd rfl hs
    | _ => rfl
  | _ => rfl

theorem isNull_right (h : Restates a b) : b.isNull = false := by
  cases h with
  | @scalar s hs =>
    cases s with
    | null => exact absurd rfl hs
    | _ => rfl
  | _ => rfl

theorem fields? (h : Restates a b) {f : Fields} (hf : b.fields? = some f) :
    ∃ g, a.fields? = some g ∧ Fields.Restates g f := by
  cases h with
  | scalar => cases hf
  | sequence => cases hf
  | record h =>
    rw [Value.fields?_record, Option.some.injEq] at hf
    exact ⟨_, Value.fields?_record _, hf ▸ h⟩

theorem items? (h : Restates a b) {l : List Value} (hl : b.items? = some l) :
    ∃ m, a.items? = some m ∧ List.Forall₂ Restates m l := by
  cases h with
  | scalar => cases hl
  | sequence h =>
    obtain rfl := Option.some.inj hl
    exact ⟨_, rfl, h⟩
  | record => cases hl

theorem eq_scalar {s : Scalar} (h : Restates a (.scalar s)) : a = .scalar s := by
  cases h
  rfl

end Value.Restates

namespace Fields.Restates

variable {a b : Fields}

theorem given?_left (h : Fields.Restates a b) (key : String) : a.given? key = a.get? key := by
  cases hv : a.get? key with
  | none => rw [given?, hv, Option.filter_none]
  | some v =>
    have hrel := h key
    rw [hv, rel_some_iff] at hrel
    obtain ⟨w, _, hw⟩ := hrel
    rw [given?, hv, Option.filter_some, if_pos (by simp [hw.isNull])]

theorem rel_given? (h : Fields.Restates a b) (key : String) :
    Option.Rel Value.Restates (a.given? key) (b.given? key) := by
  rw [h.given?_left]
  exact h key

theorem given?_none (h : Fields.Restates a b) {key : String} (hb : b.given? key = none) :
    a.given? key = none := by
  have hrel := h.rel_given? key
  rw [hb] at hrel
  cases ha : a.given? key with
  | none => rfl
  | some v => simp [ha] at hrel

theorem given?_some (h : Fields.Restates a b) {key : String} {v : Value}
    (hb : b.given? key = some v) : ∃ w, a.given? key = some w ∧ w.Restates v := by
  have hrel := h.rel_given? key
  rw [hb] at hrel
  cases ha : a.given? key with
  | none => simp [ha] at hrel
  | some w => exact ⟨w, rfl, by simpa [ha] using hrel⟩

theorem given?_map (h : Fields.Restates a b) {key : String} {o : Option α} {f : α → Scalar}
    (hb : b.given? key = o.map fun x => .scalar (f x)) :
    a.given? key = o.map fun x => .scalar (f x) := by
  cases o with
  | none => exact h.given?_none hb
  | some x =>
    obtain ⟨w, hw, hr⟩ := h.given?_some hb
    rw [hw, hr.eq_scalar]
    rfl

theorem get?_text (h : Fields.Restates a b) {key s : String} (hb : b.get? key = some (.text s)) :
    a.get? key = some (.text s) := by
  rw [← h.given?_left]
  exact h.given?_map (o := some s) (f := .text) (given?_eq_some_iff.mpr ⟨hb, nofun⟩)

theorem hasText (h : Fields.Restates a b) {key s : String} (hb : b.HasText key s) :
    a.HasText key s :=
  ⟨h.get?_text hb.1, hb.2⟩

end Fields.Restates

section Declared

def Respects (R : Value → α → Prop) : Prop :=
  ∀ ⦃a b x⦄, Value.Restates a b → R b x → R a x

variable {R : Value → α → Prop} {a b : Fields}

theorem forall₂_of_restates {l m : List Value} {x : List α}
    (h : ∀ y ∈ x, ∀ ⦃a b⦄, Value.Restates a b → R b y → R a y)
    (hl : List.Forall₂ Value.Restates l m) (hm : List.Forall₂ R m x) : List.Forall₂ R l x := by
  induction hl generalizing x with
  | nil => exact hm
  | cons hab _ ih =>
    cases hm with
    | cons hb hr =>
      rw [List.forall_mem_cons] at h
      exact .cons (h.1 hab hb) (ih h.2 hr)

theorem Respects.listOf (h : Respects R) : Respects (Value.ListOf R) := by
  rintro a b x hab ⟨items, hitems, hx⟩
  obtain ⟨l, hl, hrel⟩ := hab.items? hitems
  exact ⟨l, hl, forall₂_of_restates (fun _ _ _ _ hab hb => h hab hb) hrel hx⟩

theorem Respects.rel_given? (h : Respects R) (hab : Fields.Restates a b) {key : String}
    {x : Option α} (hx : Option.Rel R (b.given? key) x) : Option.Rel R (a.given? key) x := by
  cases hb : b.given? key with
  | none =>
    rw [hab.given?_none hb]
    rwa [hb] at hx
  | some v =>
    obtain ⟨w, hw, hr⟩ := hab.given?_some hb
    rw [hb, rel_some_iff] at hx
    obtain ⟨y, rfl, hy⟩ := hx
    rw [hw, rel_some_iff]
    exact ⟨y, rfl, h hr hy⟩

theorem respects_textsOf : Respects Value.TextsOf := by
  rintro a b m hab ⟨fields, hf, htexts⟩
  obtain ⟨g, hg, hrel⟩ := hab.fields? hf
  refine ⟨g, hg, fun key => ?_⟩
  rw [← htexts key]
  cases hv : fields.get? key with
  | none =>
    have := hrel.given?_none (Fields.given?_eq_none_iff.mpr (.inl hv))
    rw [hrel.given?_left] at this
    rw [this]
  | some v =>
    -- the text of a scalar is there, so the value is a scalar other than null
    have htext := htexts key
    rw [hv, Option.map_some] at htext
    obtain ⟨s, hs⟩ : ∃ s, v.scalarText? = some s := by
      cases hm : m.get? key with
      | none => simp [hm] at htext
      | some s => exact ⟨s, by simpa [hm] using htext⟩
    obtain ⟨x, rfl⟩ : ∃ x, v = .scalar x := by
      cases v with
      | scalar x => exact ⟨x, rfl⟩
      | sequence | mapping => simp [Value.scalarText?] at hs
    have hne : Value.scalar x ≠ .null := by
      rintro h
      simp [h, Value.scalarText?] at hs
    obtain ⟨w, hw, hr⟩ := hrel.given?_some (Fields.given?_eq_some_iff.mpr ⟨hv, hne⟩)
    rw [← hrel.given?_left, hw, hr.eq_scalar]

theorem HeadTag.respects_declaredBy : Respects HeadTag.DeclaredBy := by
  rintro a b tag hab ⟨name, attributes, hform, hparts⟩
  cases hparts with
  | @mk raw texts hname hblank htexts =>
    cases hform with
    | mapping hf =>
      obtain ⟨g, hg, hrel⟩ := hab.fields? hf
      refine ⟨_, _, .mapping hg, .mk (hrel.get?_text hname) hblank ?_⟩
      exact respects_textsOf.rel_given? hrel htexts
    | single hl =>
      obtain ⟨l, hl, hrel⟩ := hab.items? hl
      obtain rfl := Option.some.inj hname
      obtain ⟨v, _, hv, hnil, rfl⟩ := List.forall₂_cons_right_iff.mp hrel
      obtain rfl := List.forall₂_nil_right_iff.mp hnil
      exact ⟨_, _, .single hl, .mk (congrArg some hv.eq_scalar) hblank htexts⟩
    | pair hl =>
      obtain ⟨l, hl, hrel⟩ := hab.items? hl
      obtain rfl := Option.some.inj hname
      obtain ⟨v, _, hv, hrest, rfl⟩ := List.forall₂_cons_right_iff.mp hrel
      obtain ⟨w, _, hw, hnil, rfl⟩ := List.forall₂_cons_right_iff.mp hrest
      obtain rfl := List.forall₂_nil_right_iff.mp hnil
      refine ⟨_, _, .pair hl, .mk (congrArg some hv.eq_scalar) hblank ?_⟩
      simp only [Option.filter_some, hw.isNull_right, Bool.not_false, if_true,
        rel_some_iff] at htexts
      obtain ⟨m, rfl, hm⟩ := htexts
      simp only [Option.filter_some, hw.isNull, Bool.not_false, if_true]
      exact .some (respects_textsOf hw hm)

theorem NavItem.respects_declaredBy : Respects NavItem.DeclaredBy := by
  intro a b item hab hd
  induction item generalizing a b with
  | mk text link items ih =>
    cases hd with
    | link hf htext hlink hitems =>
      obtain ⟨g, hg, hrel⟩ := hab.fields? hf
      exact .link hg (hrel.hasText htext) (hrel.hasText hlink) (hrel.given?_none hitems)
    | menu hf htext hlink hitems hvalues hbelow hne =>
      obtain ⟨g, hg, hrel⟩ := hab.fields? hf
      obtain ⟨w, hw, hr⟩ := hrel.given?_some hitems
      obtain ⟨l, hl, hvals⟩ := hr.items? hvalues
      exact .menu hg (hrel.hasText htext) (hrel.given?_none hlink) hw hl
        (forall₂_of_restates ih hvals hbelow) hne

theorem SidebarItem.respects_declaredBy : Respects SidebarItem.DeclaredBy := by
  rintro a b _ hab ⟨hf, htext, hlink⟩
  obtain ⟨g, hg, hrel⟩ := hab.fields? hf
  exact .mk hg (hrel.hasText htext) (hrel.hasText hlink)

theorem SidebarGroup.respects_declaredBy : Respects SidebarGroup.DeclaredBy := by
  intro a b group hab hd
  cases hd with
  | link hf htext hlink hitems hmark =>
    obtain ⟨g, hg, hrel⟩ := hab.fields? hf
    exact .link hg (hrel.hasText htext) (hrel.hasText hlink) (hrel.given?_none hitems)
      (hrel.given?_map hmark)
  | group hf htext hlink hitems hlist hne hmark =>
    obtain ⟨g, hg, hrel⟩ := hab.fields? hf
    obtain ⟨w, hw, hr⟩ := hrel.given?_some hitems
    exact .group hg (hrel.hasText htext) (hrel.given?_none hlink) hw
      (SidebarItem.respects_declaredBy.listOf hr hlist) hne (hrel.given?_map hmark)

theorem SocialLink.respects_declaredBy : Respects SocialLink.DeclaredBy := by
  rintro a b _ hab ⟨hf, hicon, hknown, hlink, hurl⟩
  obtain ⟨g, hg, hrel⟩ := hab.fields? hf
  exact .mk hg (hrel.get?_text hicon) hknown (hrel.get?_text hlink) hurl

theorem Search.respects_declaredBy : Respects Search.DeclaredBy := by
  rintro a b _ hab ⟨hf, hprovider, hknown, hoptions, hneed⟩
  obtain ⟨g, hg, hrel⟩ := hab.fields? hf
  exact .mk hg (hrel.get?_text hprovider) hknown (respects_textsOf.rel_given? hrel hoptions) hneed

theorem Footer.respects_declaredBy : Respects Footer.DeclaredBy := by
  rintro a b _ hab ⟨hf, hmessage, hcopyright⟩
  obtain ⟨g, hg, hrel⟩ := hab.fields? hf
  exact .mk hg (hrel.given?_map hmessage) (hrel.given?_map hcopyright)

theorem Fields.StyleBy.of_restates {key standard s : String} (h : Fields.Restates a b) :
    b.StyleBy key standard s → a.StyleBy key standard s := by
  rintro ⟨chosen, hget, hknown, rfl⟩
  exact ⟨chosen, h.given?_map hget, hknown, rfl⟩

theorem LastUpdated.respects_declaredBy : Respects LastUpdated.DeclaredBy := by
  intro a b stamp hab hd
  cases hd with
  | on =>
    obtain rfl := hab.eq_scalar
    exact .on
  | off =>
    obtain rfl := hab.eq_scalar
    exact .off
  | @described _ fields text format dateStyle timeStyle hf htext hformat hdate htime =>
    obtain ⟨g, hg, hrel⟩ := hab.fields? hf
    obtain ⟨formatA, hformatA, hstyles⟩ : ∃ formatA, Option.Rel
        (fun w f => Value.fields? w = some f) (g.given? "formatOptions") formatA ∧
        ∀ key standard s, (format.getD []).StyleBy key standard s →
          (formatA.getD []).StyleBy key standard s := by
      cases hv : fields.given? "formatOptions" with
      | none =>
        rw [hv, rel_none_iff] at hformat
        exact ⟨none, by simp [hrel.given?_none hv], by simp [hformat]⟩
      | some v =>
        rw [hv, rel_some_iff] at hformat
        obtain ⟨f, rfl, hvf⟩ := hformat
        obtain ⟨w, hw, hr⟩ := hrel.given?_some hv
        obtain ⟨g', hg', hrel'⟩ := hr.fields? hvf
        exact ⟨some g', by simp [hw, hg'], fun _ _ _ => .of_restates hrel'⟩
    exact .described hg (hrel.given?_map htext) hformatA (hstyles _ _ _ hdate) (hstyles _ _ _ htime)

theorem Theme.LogoBy.of_restates {logo : String} (h : Fields.Restates a b) :
    Theme.LogoBy b logo → Theme.LogoBy a logo
  | .absent hlogo => .absent (h.given?_none hlogo)
  | .blank hlogo hblank => .blank (h.get?_text hlogo) hblank
  | .link hlogo => .link (h.hasText hlogo)

theorem Theme.DeclaredBy.of_restates {theme : Theme} (h : Fields.Restates a b)
    (hd : Theme.DeclaredBy b theme) : Theme.DeclaredBy a theme where
  logo := hd.logo.of_restates h
  nav := NavItem.respects_declaredBy.listOf.rel_given? h hd.nav
  sidebar := SidebarGroup.respects_declaredBy.listOf.rel_given? h hd.sidebar
  socialLinks := SocialLink.respects_declaredBy.listOf.rel_given? h hd.socialLinks
  search := Search.respects_declaredBy.rel_given? h hd.search
  footer := Footer.respects_declaredBy.rel_given? h hd.footer
  lastUpdated := by
    have hlast := hd.lastUpdated
    cases hb : b.given? "lastUpdated" with
    | none =>
      rw [hb] at hlast
      rwa [h.given?_none hb]
    | some v =>
      rw [hb] at hlast
      obtain ⟨w, hw, hr⟩ := h.given?_some hb
      rw [hw]
      exact LastUpdated.respects_declaredBy hr hlast

theorem Site.DeclaredBy.of_restates {site : Site} (h : Fields.Restates a b)
    (hd : Site.DeclaredBy b site) : Site.DeclaredBy a site := by
  have htheme : Respects fun v t => ∃ f : Fields, v.fields? = some f ∧ Theme.DeclaredBy f t := by
    rintro v w t hvw ⟨f, hf, ht⟩
    obtain ⟨g, hg, hrel⟩ := hvw.fields? hf
    exact ⟨g, hg, ht.of_restates hrel⟩
  obtain ⟨title, htitle, htitleEq⟩ := hd.title
  obtain ⟨description, hdescription, hdescriptionEq⟩ := hd.description
  obtain ⟨lang, hlang, hlangEq⟩ := hd.lang
  obtain ⟨theme, hrel, hthemeEq⟩ := hd.theme
  exact {
    title := ⟨title, h.hasText htitle, htitleEq⟩
    description := ⟨description, h.hasText hdescription, hdescriptionEq⟩
    lang := ⟨lang, h.given?_map hlang, hlangEq⟩
    head := HeadTag.respects_declaredBy.listOf.rel_given? h hd.head
    theme := ⟨theme, htheme.rel_given? h hrel, hthemeEq⟩ }

end Declared

theorem build_of_restates {site : Site} {read : Fields} (h : site.WellFormed)
    (hfree : CollisionFree (site.theme.sidebar.getD [])) (hlinks : site.LinksFixed)
    (hread : Fields.Restates read site.toFields) : ∃ r, build read = .ok r ∧ r.site = site := by
  have hself := (Site.declaredBy_toFields_iff h).mpr hlinks
  exact ⟨⟨site, (Schema.site read).warnings⟩,
    build_eq_ok_iff.mpr ⟨hself.of_restates hread, hfree, rfl⟩, rfl⟩

end DocSite
