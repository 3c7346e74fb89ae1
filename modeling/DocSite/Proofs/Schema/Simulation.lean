import DocSite.Proofs.Schema.Part

/-!
Declarations that reading does not tell apart. A simulation relates values by what they are to the
schema: related values show the readers the same, and the parts that readers look into are related
again. Every reader of the schema gives the same for related values, but for warnings that are left
out of the comparison.
-/

namespace DocSite

/-- The two reviews give the same value, the same findings and, among the warnings that are seen,
the same warnings. -/
structure Review.Agrees (seen : Warning → Bool) (r s : Review α) : Prop where
  value : r.value = s.value
  findings : r.findings = s.findings
  warnings : r.warnings.filter seen = s.warnings.filter seen

namespace Review.Agrees

variable {seen : Warning → Bool} {r s : Review α}

theorem refl (r : Review α) : Agrees seen r r := ⟨rfl, rfl, rfl⟩

theorem of_eq (h : r = s) : Agrees seen r s := h ▸ refl r

theorem bind {f g : α → Review β} (h : Agrees seen r s) (hfg : ∀ a, Agrees seen (f a) (g a)) :
    Agrees seen (r >>= f) (s >>= g) where
  value := by rw [value_bind, value_bind, h.value, (hfg _).value]
  findings := by rw [findings_bind, findings_bind, h.findings, h.value, (hfg _).findings]
  warnings := by
    rw [warnings_bind, warnings_bind, List.filter_append, List.filter_append, h.warnings, h.value,
      (hfg _).warnings]

theorem eq (h : Agrees (fun _ => true) r s) : r = s := by
  obtain ⟨value, findings, warnings⟩ := r
  obtain ⟨hvalue, hfindings, hwarnings⟩ := h
  rw [List.filter_true, List.filter_true] at hwarnings
  subst hvalue hfindings hwarnings
  rfl

end Review.Agrees

namespace Fields

theorem rel_given? {R : Value → Value → Prop} (hnull : ∀ {v w}, R v w → v.isNull = w.isNull)
    {a b : Fields} {key : String} (h : Option.Rel R (a.get? key) (b.get? key)) :
    Option.Rel R (a.given? key) (b.given? key) := by
  rw [given?, given?]
  obtain ⟨ha, hb⟩ | ⟨v, w, ha, hb, hvw⟩ := rel_cases h <;> rw [ha, hb]
  · exact .none
  · rw [Option.filter_some, Option.filter_some, hnull hvw]
    split
    · exact .some hvw
    · exact .none

theorem bind_text?_given? (fields : Fields) (key : String) :
    (fields.given? key).bind Value.text? = (fields.get? key).bind Value.text? := by
  obtain h | ⟨h, hnull⟩ := given?_cases fields key
  · rw [h]
  · rw [h, hnull]
    rfl

end Fields

namespace Schema

open Review (Agrees)

/-- The mappings have related values under the keys of the schema, and the same unknown keys as far
as the warnings about them are seen. -/
structure SameFields (seen : Warning → Bool) (R : Role → Value → Value → Prop) (role : Role)
    (known : List String) (a b : Fields) : Prop where
  given? : ∀ key ∈ known, Option.Rel (R (role.field key)) (a.given? key) (b.given? key)
  unknownKeys : ∀ path, (Schema.unknownKeys path a known).warnings.filter seen =
    (Schema.unknownKeys path b known).warnings.filter seen

/-- Related values look the same, and what readers find in them is related by what it is to the
schema. -/
structure Simulation (seen : Warning → Bool) (R : Role → Value → Value → Prop) : Prop where
  text? : ∀ {role v w}, R role v w → v.text? = w.text?
  bool? : ∀ {role v w}, R role v w → v.bool? = w.bool?
  isNull : ∀ {role v w}, R role v w → v.isNull = w.isNull
  items? : ∀ {role v w}, R role v w → Option.Rel (List.Forall₂ (R role.member)) v.items? w.items?
  fields? : ∀ {role v w known}, R role v w → role.keys? = some known →
    Option.Rel (SameFields seen R role known) v.fields? w.fields?

def AgreesOn (seen : Warning → Bool) (R : Value → Value → Prop)
    (read : String → Value → Review α) : Prop :=
  ∀ path v w, R v w → Agrees seen (read path v) (read path w)

section Simulation

variable {seen : Warning → Bool} {R : Role → Value → Value → Prop} {role : Role}
  {known : List String} {a b : Fields} {v w : Value} {x y : Option Value} {key : String}

theorem bind_text?_of_rel {R : Value → Value → Prop} (htext : ∀ {v w}, R v w → v.text? = w.text?)
    (h : Option.Rel R x y) : x.bind Value.text? = y.bind Value.text? := by
  obtain ⟨rfl, rfl⟩ | ⟨v, w, rfl, rfl, hvw⟩ := rel_cases h
  · rfl
  · exact htext hvw

theorem nonBlank?_congr (h : x.bind Value.text? = y.bind Value.text?) :
    nonBlank? x = nonBlank? y := by
  rw [nonBlank?, nonBlank?, h]

theorem oneOf_congr (h : x.bind Value.text? = y.bind Value.text?) (path : String)
    (known : List String) : oneOf path known x = oneOf path known y := by
  rw [oneOf, oneOf, h]

theorem socialTarget_congr (h : x.bind Value.text? = y.bind Value.text?) (path : String) :
    socialTarget path x = socialTarget path y := by
  rw [socialTarget, socialTarget, h]

theorem entryLink_congr (h : v.text? = w.text?) (path : String) :
    entryLink path v = entryLink path w := by
  have hsome : nonBlank? (some v) = nonBlank? (some w) := nonBlank?_congr h
  rw [entryLink, entryLink, hsome]

namespace SameFields

theorem bind_text? (h : SameFields seen R role known a b) (c : Simulation seen R)
    (hkey : key ∈ known) : (a.get? key).bind Value.text? = (b.get? key).bind Value.text? := by
  rw [← Fields.bind_text?_given?, ← Fields.bind_text?_given?,
    bind_text?_of_rel c.text? (h.given? key hkey)]

theorem agrees_unknownKeys (h : SameFields seen R role known a b) (path : String) :
    Agrees seen (Schema.unknownKeys path a known) (Schema.unknownKeys path b known) :=
  ⟨rfl, rfl, h.unknownKeys path⟩

theorem requiredText (h : SameFields seen R role known a b) (c : Simulation seen R)
    (hkey : key ∈ known) : requiredText a key = requiredText b key := by
  rw [Schema.requiredText, Schema.requiredText]
  obtain ⟨ha, hb⟩ | ⟨v, w, ha, hb, hvw⟩ := rel_cases (h.given? key hkey) <;> rw [ha, hb]
  simp only [c.text? hvw]

theorem optionalText (h : SameFields seen R role known a b) (c : Simulation seen R)
    (hkey : key ∈ known) (path : String) : optionalText path a key = optionalText path b key := by
  rw [Schema.optionalText, Schema.optionalText]
  obtain ⟨ha, hb⟩ | ⟨v, w, ha, hb, hvw⟩ := rel_cases (h.given? key hkey) <;> rw [ha, hb]
  simp only [c.text? hvw]

theorem label (h : SameFields seen R role known a b) (c : Simulation seen R)
    (hkey : "text" ∈ known) (path : String) : label path a = label path b := by
  rw [Schema.label, Schema.label, nonBlank?_congr (h.bind_text? c hkey)]

theorem style (h : SameFields seen R role known a b) (c : Simulation seen R) (hkey : key ∈ known)
    (path standard : String) : style path a key standard = style path b key standard := by
  rw [Schema.style, Schema.style]
  obtain ⟨ha, hb⟩ | ⟨v, w, ha, hb, hvw⟩ := rel_cases (h.given? key hkey) <;> rw [ha, hb]
  have htext : (some v).bind Value.text? = (some w).bind Value.text? := c.text? hvw
  simp only [oneOf_congr htext]

theorem optionalField (h : SameFields seen R role known a b) (key : String) (hkey : key ∈ known)
    {read : String → Value → Review (Option α)} (hread : AgreesOn seen (R (role.field key)) read)
    (path : String) :
    Agrees seen (optionalField path a key read) (optionalField path b key read) := by
  rw [Schema.optionalField, Schema.optionalField]
  obtain ⟨ha, hb⟩ | ⟨v, w, ha, hb, hvw⟩ := rel_cases (h.given? key hkey) <;> rw [ha, hb]
  · exact .refl _
  · exact hread _ _ _ hvw

end SameFields

theorem AgreesOn.collectFrom {R : Value → Value → Prop} {read : String → Value → Review (Option α)}
    (hread : AgreesOn seen R read) {l m : List Value} (h : List.Forall₂ R l m) (path : String)
    (i : Nat) : Agrees seen (collectFrom path read i l) (collectFrom path read i m) := by
  induction h generalizing i with
  | nil => exact .refl _
  | cons hvw _ ih => exact (hread _ _ _ hvw).bind fun _ => (ih _).bind fun _ => .refl _

namespace Simulation

theorem sequenceOf (c : Simulation seen R) (role : Role)
    {read : String → Value → Review (Option α)} (hread : AgreesOn seen (R role) read) :
    AgreesOn seen (R (.listOf role)) fun path v => sequenceOf path read v := by
  intro path v w h
  simp only [Schema.sequenceOf]
  obtain ⟨hv, hw⟩ | ⟨l, m, hv, hw, hlm⟩ := rel_cases (c.items? h) <;> rw [hv, hw]
  · exact .refl _
  · exact (hread.collectFrom hlm path 0).bind fun _ => .refl _

theorem collapsedMark (c : Simulation seen R) (h : Option.Rel (R role) x y) (path : String)
    (isLink : Bool) : collapsedMark path isLink x = collapsedMark path isLink y := by
  obtain ⟨rfl, rfl⟩ | ⟨v, w, rfl, rfl, hvw⟩ := rel_cases h
  · rfl
  · simp only [Schema.collapsedMark, c.bool? hvw]

theorem sidebarItem (c : Simulation seen R) : AgreesOn seen (R .sidebarItem) sidebarItem := by
  intro path v w h
  rw [Schema.sidebarItem, Schema.sidebarItem]
  obtain ⟨hv, hw⟩ | ⟨a, b, hv, hw, hab⟩ := rel_cases (c.fields? h rfl) <;> rw [hv, hw]
  · exact .refl _
  · refine (hab.agrees_unknownKeys path).bind fun _ => .of_eq ?_
    rw [hab.label c (by decide), nonBlank?_congr (hab.bind_text? c (by decide))]

theorem groupItems (c : Simulation seen R) :
    AgreesOn seen (R (.listOf .sidebarItem)) groupItems := by
  intro path v w h
  rw [Schema.groupItems, Schema.groupItems]
  obtain ⟨hv, hw⟩ | ⟨l, m, hv, hw, hlm⟩ := rel_cases (c.items? h) <;> rw [hv, hw]
  · exact .refl _
  · cases hlm with
    | nil => exact .refl _
    | cons hvw hlm => exact (c.sidebarItem.collectFrom (.cons hvw hlm) path 0).bind fun _ => .refl _

theorem sidebarGroup (c : Simulation seen R) : AgreesOn seen (R .sidebarEntry) sidebarGroup := by
  intro path v w h
  rw [Schema.sidebarGroup, Schema.sidebarGroup]
  obtain ⟨hv, hw⟩ | ⟨a, b, hv, hw, hab⟩ := rel_cases (c.fields? h rfl) <;> rw [hv, hw]
  · exact .refl _
  · refine (hab.agrees_unknownKeys path).bind fun _ => ?_
    rw [hab.label c (by decide)]
    refine (Agrees.refl _).bind fun text => ?_
    cases text with
    | none => exact .refl _
    | some text =>
      have hmark := hab.given? "collapsed" (by decide)
      obtain ⟨hla, hlb⟩ | ⟨x, y, hla, hlb, hlink⟩ := rel_cases (hab.given? "link" (by decide)) <;>
        obtain ⟨hia, hib⟩ | ⟨z, t, hia, hib, hitems⟩ :=
          rel_cases (hab.given? "items" (by decide)) <;>
        rw [hla, hlb, hia, hib]
      · exact .refl _
      · simp only [c.collapsedMark hmark]
        exact (Agrees.refl _).bind fun _ => (c.groupItems _ _ _ hitems).bind fun _ => .refl _
      · simp only [c.collapsedMark hmark, entryLink_congr (c.text? hlink)]
        exact .refl _
      · exact .refl _

theorem socialLink (c : Simulation seen R) : AgreesOn seen (R .socialLink) socialLink := by
  intro path v w h
  rw [Schema.socialLink, Schema.socialLink]
  obtain ⟨hv, hw⟩ | ⟨a, b, hv, hw, hab⟩ := rel_cases (c.fields? h rfl) <;> rw [hv, hw]
  · exact .refl _
  · refine (hab.agrees_unknownKeys path).bind fun _ => .of_eq ?_
    rw [oneOf_congr (hab.bind_text? c (by decide)),
      socialTarget_congr (hab.bind_text? c (by decide))]

theorem footer (c : Simulation seen R) : AgreesOn seen (R .footer) footer := by
  intro path v w h
  rw [Schema.footer, Schema.footer]
  obtain ⟨hv, hw⟩ | ⟨a, b, hv, hw, hab⟩ := rel_cases (c.fields? h rfl) <;> rw [hv, hw]
  · exact .refl _
  · refine (hab.agrees_unknownKeys path).bind fun _ => .of_eq ?_
    rw [hab.optionalText c (by decide), hab.optionalText c (by decide)]

theorem stampStyles (c : Simulation seen R) (stamp : LastUpdated) (path : String)
    (h : Option.Rel (R .formatOptions) x y) :
    Agrees seen (stampStyles path stamp x) (stampStyles path stamp y) := by
  obtain ⟨rfl, rfl⟩ | ⟨v, w, rfl, rfl, hvw⟩ := rel_cases h
  · exact .refl _
  · rw [Schema.stampStyles, Schema.stampStyles]
    obtain ⟨hv, hw⟩ | ⟨a, b, hv, hw, hab⟩ := rel_cases (c.fields? hvw rfl) <;> simp only [hv, hw]
    · exact .refl _
    · refine (hab.agrees_unknownKeys path).bind fun _ => .of_eq ?_
      rw [hab.style c (by decide)]
      simp only [hab.style c (by decide : "timeStyle" ∈ formatKeys)]

theorem lastUpdated (c : Simulation seen R) : AgreesOn seen (R .lastUpdated) lastUpdated := by
  intro path v w h
  rw [Schema.lastUpdated, Schema.lastUpdated, c.bool? h]
  cases w.bool? with
  | some b => cases b <;> exact .refl _
  | none =>
    obtain ⟨hv, hw⟩ | ⟨a, b, hv, hw, hab⟩ := rel_cases (c.fields? h rfl) <;> rw [hv, hw]
    · exact .refl _
    · refine (hab.agrees_unknownKeys path).bind fun _ => ?_
      rw [hab.optionalText c (by decide)]
      exact (Agrees.refl _).bind fun _ => c.stampStyles _ _ (hab.given? "formatOptions" (by decide))

theorem logo (c : Simulation seen R) (h : SameFields seen R .theme themeKeys a b) (path : String) :
    logo path a = logo path b := by
  rw [Schema.logo, Schema.logo, h.optionalText c (by decide)]

theorem navFrom {R : Value → Value → Prop} {l m : List Value} (h : List.Forall₂ R l m)
    (hread : ∀ v ∈ l, ∀ w, R v w → ∀ path, Agrees seen (navEntry path v) (navEntry path w))
    (path : String) (i : Nat) (uses : List (String × Nat)) :
    Agrees seen (navFrom path i uses l) (navFrom path i uses m) := by
  induction h generalizing i uses with
  | nil => exact .refl _
  | cons hvw _ ih =>
    rw [List.forall_mem_cons] at hread
    rw [Schema.navFrom, Schema.navFrom]
    refine (hread.1 _ hvw _).bind fun item => ?_
    cases item with
    | none => exact ih hread.2 _ _
    | some item => exact (Agrees.refl _).bind fun _ => (ih hread.2 _ _).bind fun _ => .refl _

theorem navEntry_of_shapeless (hv : v.fields? = none) (path : String) :
    Schema.navEntry path v = do
      Review.mismatch path entryShape
      return none := by
  cases v with
  | mapping kind entries =>
    have hkeyed : Value.textKeyed? entries = none := hv
    rw [Schema.navEntry, hkeyed]
  | _ =>
    rw [Schema.navEntry]
    simp

theorem nav_of_shapeless (hv : v.items? = none) (path : String) :
    nav path v = do
      Review.mismatch path "sequence"
      return none := by
  cases v with
  | sequence => cases hv
  | _ =>
    rw [nav]
    simp

theorem navEntry_of_below (c : Simulation seen R) (hv : v.fields? = some a)
    (hw : w.fields? = some b) (h : SameFields seen R .navEntry navKeys a b)
    (hbelow : ∀ z, a.get? "items" = some z → ∀ t, R (.listOf .navEntry) z t →
      ∀ path, Agrees seen (nav path z) (nav path t)) (path : String) :
    Agrees seen (navEntry path v) (navEntry path w) := by
  obtain ⟨_, rfl⟩ := Value.fields?_eq_some_iff.mp hv
  obtain ⟨_, rfl⟩ := Value.fields?_eq_some_iff.mp hw
  have ha : Value.textKeyed? (a.map fun f => (.text f.1, f.2)) = some a := hv
  have hb : Value.textKeyed? (b.map fun f => (.text f.1, f.2)) = some b := hw
  rw [Schema.navEntry, Schema.navEntry, ha, hb]
  refine (h.agrees_unknownKeys path).bind fun _ => ?_
  rw [h.label c (by decide)]
  refine (Agrees.refl _).bind fun text => ?_
  cases text with
  | none => exact .refl _
  | some text =>
    obtain ⟨hla, hlb⟩ | ⟨x, y, hla, hlb, hlink⟩ := rel_cases (h.given? "link" (by decide)) <;>
      obtain ⟨hia, hib⟩ | ⟨z, t, hia, hib, hitems⟩ := rel_cases (h.given? "items" (by decide)) <;>
      simp only [hla, hlb, hia, hib, Option.isSome_none, Option.isSome_some]
    · exact .refl _
    · have hza := (Fields.given?_eq_some_iff.mp hia).1
      have hitems := hbelow z hza t hitems (fieldPath path "items")
      rw [navBelow_eq hza, navBelow_eq (Fields.given?_eq_some_iff.mp hib).1, hitems.findings]
      exact hitems.bind fun _ => .refl _
    · rw [entryLink_congr (c.text? hlink)]
      exact .refl _
    · exact .refl _

theorem navEntry_nav (c : Simulation seen R) (v w : Value) :
    (R .navEntry v w → ∀ path, Agrees seen (Schema.navEntry path v) (Schema.navEntry path w)) ∧
      (R (.listOf .navEntry) v w → ∀ path, Agrees seen (nav path v) (nav path w)) := by
  have hentry : ∀ {v w}, v.fields? = none → R .navEntry v w →
      ∀ path, Agrees seen (Schema.navEntry path v) (Schema.navEntry path w) := by
    intro v w hv h path
    obtain ⟨-, hw⟩ | ⟨a, b, hva, -⟩ := rel_cases (c.fields? h rfl)
    · rw [navEntry_of_shapeless hv, navEntry_of_shapeless hw]
      exact .refl _
    · cases hv.symm.trans hva
  have hlist : ∀ {v w}, v.items? = none → R (.listOf .navEntry) v w →
      ∀ path, Agrees seen (nav path v) (nav path w) := by
    intro v w hv h path
    obtain ⟨-, hw⟩ | ⟨l, m, hvl, -⟩ := rel_cases (c.items? h)
    · rw [nav_of_shapeless hv, nav_of_shapeless hw]
      exact .refl _
    · cases hv.symm.trans hvl
  -- an entry looks at the list in its field, a list at its entries
  induction v generalizing w with
  | scalar s => exact ⟨hentry rfl, hlist rfl⟩
  | sequence kind items ih =>
    refine ⟨hentry rfl, fun h path => ?_⟩
    obtain ⟨hv, -⟩ | ⟨l, m, hv, hw, hlm⟩ := rel_cases (c.items? h)
    · cases hv
    · cases hv
      obtain ⟨_, rfl⟩ := Value.items?_eq_some_iff.mp hw
      rw [nav, nav]
      exact (navFrom hlm (fun z hz t => (ih z hz t).1) path 0 []).bind fun _ => .refl _
  | mapping kind entries ih =>
    refine ⟨fun h path => ?_, hlist rfl⟩
    obtain ⟨hv, hw⟩ | ⟨a, b, hv, hw, hab⟩ := rel_cases (c.fields? h rfl)
    · exact hentry hv h path
    · refine c.navEntry_of_below hv hw hab (fun z hz t => ?_) path
      obtain rfl := Value.textKeyed?_eq_some_iff.mp hv
      exact (ih (.text "items", z) (List.mem_map.mpr ⟨_, Fields.mem_of_get? hz, rfl⟩) t).2

theorem nav (c : Simulation seen R) : AgreesOn seen (R (.listOf .navEntry)) nav :=
  fun path v w h => (c.navEntry_nav v w).2 h path

end Simulation

end Simulation

def SameTexts (R : Role → Value → Value → Prop) : Prop :=
  ∀ path v w, R .free v w → textMap path v = textMap path w

section Texts

variable {seen : Warning → Bool} {R : Role → Value → Value → Prop} {a b : Fields}
  {x y x' y' : Option Value}

theorem SameTexts.headTagParts (htexts : SameTexts R)
    (hname : x.bind Value.text? = y.bind Value.text?)
    (hattributes : Option.Rel (R .free) (x'.filter fun v => !v.isNull)
      (y'.filter fun v => !v.isNull)) (path : String) :
    headTagParts path x x' = headTagParts path y y' := by
  rw [Schema.headTagParts, Schema.headTagParts, nonBlank?_congr hname]
  obtain ⟨hx, hy⟩ | ⟨v, w, hx, hy, hvw⟩ := rel_cases hattributes <;> rw [hx, hy]
  simp only [htexts _ _ _ hvw]

namespace Simulation

theorem headTag (c : Simulation seen R) (htexts : SameTexts R) :
    AgreesOn seen (R .headTag) headTag := by
  intro path v w h
  rw [Schema.headTag, Schema.headTag]
  obtain ⟨hv, hw⟩ | ⟨a, b, hv, hw, hab⟩ := rel_cases (c.fields? h rfl) <;> rw [hv, hw]
  · obtain ⟨hv, hw⟩ | ⟨l, m, hv, hw, hlm⟩ := rel_cases (c.items? h) <;> rw [hv, hw]
    · exact .refl _
    · cases hlm with
      | nil => exact .refl _
      | cons hname hlm =>
        have htext := bind_text?_of_rel c.text? (.some hname)
        cases hlm with
        | nil => exact .of_eq (htexts.headTagParts htext .none path)
        | @cons v w _ _ hattributes hlm =>
          cases hlm with
          | nil =>
            refine .of_eq (htexts.headTagParts htext ?_ path)
            rw [Option.filter_some, Option.filter_some, c.isNull hattributes]
            split
            · exact .some hattributes
            · exact .none
          | cons => exact .refl _
  · refine (hab.agrees_unknownKeys path).bind fun _ => .of_eq ?_
    exact htexts.headTagParts (hab.bind_text? c (by decide)) (hab.given? "attributes" (by decide)) _

theorem search (c : Simulation seen R) (htexts : SameTexts R) :
    AgreesOn seen (R .search) search := by
  intro path v w h
  rw [Schema.search, Schema.search]
  obtain ⟨hv, hw⟩ | ⟨a, b, hv, hw, hab⟩ := rel_cases (c.fields? h rfl) <;> rw [hv, hw]
  · exact .refl _
  · refine (hab.agrees_unknownKeys path).bind fun _ => .of_eq ?_
    rw [oneOf_congr (hab.bind_text? c (by decide))]
    obtain ⟨ha, hb⟩ | ⟨v, w, ha, hb, hvw⟩ := rel_cases (hab.given? "options" (by decide)) <;>
      rw [ha, hb]
    simp only [searchOptions.eq_def, htexts _ _ _ hvw]

theorem theme (c : Simulation seen R) (htexts : SameTexts R) (path : String)
    (h : SameFields seen R .theme themeKeys a b) : Agrees seen (theme path a) (theme path b) := by
  rw [Schema.theme, Schema.theme, c.logo h]
  have unknown := h.agrees_unknownKeys path
  have nav := h.optionalField "nav" (by decide) c.nav path
  have sidebar :=
    h.optionalField "sidebar" (by decide) (c.sequenceOf .sidebarEntry c.sidebarGroup) path
  have socialLinks :=
    h.optionalField "socialLinks" (by decide) (c.sequenceOf .socialLink c.socialLink) path
  have search := h.optionalField "search" (by decide) (c.search htexts) path
  have footer := h.optionalField "footer" (by decide) c.footer path
  have lastUpdated := h.optionalField "lastUpdated" (by decide) c.lastUpdated path
  exact unknown.bind fun _ => (Agrees.refl _).bind fun _ =>
    nav.bind fun _ => sidebar.bind fun _ => socialLinks.bind fun _ =>
      search.bind fun _ => footer.bind fun _ => lastUpdated.bind fun _ => .refl _

theorem themeSection (c : Simulation seen R) (htexts : SameTexts R) :
    AgreesOn seen (R .theme) themeSection := by
  intro path v w h
  rw [Schema.themeSection, Schema.themeSection]
  obtain ⟨hv, hw⟩ | ⟨a, b, hv, hw, hab⟩ := rel_cases (c.fields? h rfl) <;> rw [hv, hw]
  · exact .refl _
  · exact (c.theme htexts path hab).bind fun _ => .refl _

theorem site (c : Simulation seen R) (htexts : SameTexts R)
    (h : R .site (.record a) (.record b)) : Agrees seen (site a) (site b) := by
  obtain ⟨ha, -⟩ | ⟨a', b', ha, hb, hab⟩ := rel_cases (c.fields? h rfl)
  · cases (Value.fields?_record a).symm.trans ha
  rw [Value.fields?_record] at ha hb
  cases ha
  cases hb
  have title : requiredText a "title" = requiredText b "title" := hab.requiredText c (by decide)
  have description : requiredText a "description" = requiredText b "description" :=
    hab.requiredText c (by decide)
  have lang : optionalText "" a "lang" = optionalText "" b "lang" :=
    hab.optionalText c (by decide) ""
  have unknown := hab.agrees_unknownKeys ""
  have head :=
    hab.optionalField "head" (by decide) (c.sequenceOf .headTag (c.headTag htexts)) ""
  have themeConfig := hab.optionalField "themeConfig" (by decide) (c.themeSection htexts) ""
  rw [Schema.site, Schema.site, title, description, lang]
  exact unknown.bind fun _ => (Agrees.refl _).bind fun _ => (Agrees.refl _).bind fun _ =>
    (Agrees.refl _).bind fun _ => head.bind fun _ => themeConfig.bind fun _ => .refl _

end Simulation

end Texts

end Schema

theorem Review.Agrees.map_site_build {seen : Warning → Bool} {a b : Fields}
    (h : Agrees seen (Schema.site a) (Schema.site b)) :
    (build a).map Report.site = (build b).map Report.site := by
  simp only [build, h.value, h.findings]
  split <;> rfl

theorem Review.Agrees.build_eq {a b : Fields}
    (h : Agrees (fun _ => true) (Schema.site a) (Schema.site b)) : build a = build b := by
  simp only [build, h.eq]

end DocSite
