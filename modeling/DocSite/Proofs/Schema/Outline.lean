import DocSite.Decode
import DocSite.Proofs.Fields
import DocSite.Proofs.Number.Shortest
import DocSite.Proofs.Schema.Simulation

/-!
Declarations before they are written in a format. The formats read the same integer as numbers of
different kinds; a reader of the schema sees the kind of a number only where it takes the number's
text, so that what is reported about a declaration does not depend on its format.
-/

namespace DocSite

inductive Outline
  | null
  | bool (b : Bool)
  | text (s : String)
  | integer (i : Int)
  | list (items : List Outline)
  | record (fields : List (String × Outline))

/-- The number that a format reads from the decimal notation of an integer. JSON has floating-point
numbers only; the integers of the other formats have 64 bits. -/
def Format.integer? (format : Format) (i : Int) : Option Scalar :=
  match format with
  | .json => (Number.readFloat (toString i).toList).toOption.map .float
  | .yaml =>
    match Yaml.resolve (toString i) with
    | .integer width i => some (.integer width i)
    | _ => none
  | .toml =>
    match Toml.scalar? (toString i).toList with
    | some (x, []) => some x
    | _ => none

/-- The value that a format gives for a declaration, where it can hold it: TOML has no nulls. The
order of fields does not matter. -/
inductive Outline.Decodes (format : Format) : Outline → Value → Prop
  | null : format ≠ .toml → Decodes format .null .null
  | bool (b : Bool) : Decodes format (.bool b) (.bool b)
  | text (s : String) : Decodes format (.text s) (.text s)
  | integer {i : Int} {s : Scalar} :
    format.integer? i = some s → Decodes format (.integer i) (.scalar s)
  | list {items : List Outline} {values : List Value} :
    List.Forall₂ (Decodes format) items values → Decodes format (.list items) (.list values)
  | record {fields : List (String × Outline)} {a : Fields} : (a.map (·.1)).Nodup →
    (∀ key, Option.Rel (Decodes format) (fields.lookup key) (a.get? key)) →
    Decodes format (.record fields) (.record a)

def Scalar.IsNumber : Scalar → Prop
  | .integer width _ => width ≠ .other
  | .float _ => True
  | _ => False

theorem Scalar.IsNumber.seen {s : Scalar} (h : s.IsNumber) : (Value.scalar s).text? = none ∧
    (Value.scalar s).bool? = none ∧ (Value.scalar s).isNull = false ∧
    (Value.scalar s).scalarText?.isSome := by
  cases s with
  | integer width i =>
    cases width with
    | other => exact absurd rfl h
    | _ => exact ⟨rfl, rfl, rfl, rfl⟩
  | float => exact ⟨rfl, rfl, rfl, rfl⟩
  | _ => cases h

theorem Format.integer?_cases {format : Format} {i : Int} {s : Scalar}
    (h : format.integer? i = some s) :
    format = .json ∧ (∃ x, Number.readFloat (toString i).toList = .ok x ∧ s = .float x) ∨
      format ≠ .json ∧ ∃ width, width ≠ .other ∧ s = .integer width i := by
  cases format with
  | json =>
    obtain ⟨x, hx, rfl⟩ := Option.map_eq_some_iff.mp h
    refine .inl ⟨rfl, x, ?_, rfl⟩
    cases hread : Number.readFloat (toString i).toList <;> rw [hread] at hx
    · cases hx
    · exact congrArg Except.ok (Option.some.inj hx)
  | yaml =>
    rw [integer?] at h
    split at h
    · rename_i hresolve
      obtain ⟨rfl, hwidth⟩ := Yaml.eq_of_resolve_toString hresolve
      exact .inr ⟨nofun, _, hwidth, (Option.some.inj h).symm⟩
    · cases h
  | toml =>
    simp only [integer?, Toml.scalar?_toString] at h
    split at h
    · rename_i heq
      split at heq
      · cases h
        cases heq
        exact .inr ⟨nofun, .signed, nofun, rfl⟩
      · cases heq
    · cases h

theorem Format.isNumber_of_integer? {format : Format} {i : Int} {s : Scalar}
    (h : format.integer? i = some s) : s.IsNumber := by
  obtain ⟨-, x, -, rfl⟩ | ⟨-, width, hwidth, rfl⟩ := integer?_cases h
  · trivial
  · exact hwidth

/-- The values are read from one declaration, in whatever formats. -/
def Value.Alike (v w : Value) : Prop := ∃ o f g, Outline.Decodes f o v ∧ Outline.Decodes g o w

theorem Outline.Decodes.alike {f g : Format} {o : Outline} {v w : Value} (hv : o.Decodes f v)
    (hw : o.Decodes g w) : Value.Alike v w := ⟨o, f, g, hv, hw⟩

theorem Outline.Decodes.eq_null {format : Format} {o : Outline} (h : o.Decodes format .null) :
    o = .null := by
  cases h with
  | null => rfl
  | integer hs => exact (Format.isNumber_of_integer? hs).elim

theorem Outline.Decodes.fields {format : Format} {fields : List (String × Outline)} {v : Value}
    {a : Fields} (h : (Outline.record fields).Decodes format v) (hv : v.fields? = some a) :
    (a.map (·.1)).Nodup ∧ ∀ key, Option.Rel (Decodes format) (fields.lookup key) (a.get? key) := by
  cases h with
  | record hnodup hfields =>
    rw [Value.fields?_record] at hv
    cases hv
    exact ⟨hnodup, hfields⟩

theorem Outline.Decodes.exists_record {format : Format} {o : Outline} {v : Value} {a : Fields}
    (h : o.Decodes format v) (hv : v.fields? = some a) :
    ∃ fields, o = .record fields ∧
      ∀ key, Option.Rel (Decodes format) (fields.lookup key) (a.get? key) := by
  cases h with
  | record hnodup hfields =>
    exact ⟨_, rfl, (Decodes.fields (.record hnodup hfields) hv).2⟩
  | _ => cases hv

structure Fields.Alike (a b : Fields) : Prop where
  left : (a.map (·.1)).Nodup
  right : (b.map (·.1)).Nodup
  get? : ∀ key, Option.Rel Value.Alike (a.get? key) (b.get? key)

theorem rel_of_rel {R : α → β → Prop} {S : α → γ → Prop} {T : β → γ → Prop}
    (h : ∀ a b c, R a b → S a c → T b c) {o : Option α} {x : Option β} {y : Option γ}
    (hx : Option.Rel R o x) (hy : Option.Rel S o y) : Option.Rel T x y := by
  cases hx with
  | none =>
    cases hy
    exact .none
  | some hr =>
    cases hy with
    | some hs => exact .some (h _ _ _ hr hs)

theorem forall₂_of_forall₂ {R : α → β → Prop} {S : α → γ → Prop} {T : β → γ → Prop}
    (h : ∀ a b c, R a b → S a c → T b c) {l : List α} {m : List β} {n : List γ}
    (hm : List.Forall₂ R l m) (hn : List.Forall₂ S l n) : List.Forall₂ T m n := by
  induction hm generalizing n with
  | nil =>
    cases hn
    exact .nil
  | cons hr _ ih =>
    cases hn with
    | cons hs hn => exact .cons (h _ _ _ hr hs) (ih hn)

theorem Outline.alike_of_decodes {f g : Format} {p : Option Outline} {x y : Option Value}
    (hx : Option.Rel (Decodes f) p x) (hy : Option.Rel (Decodes g) p y) :
    Option.Rel Value.Alike x y :=
  rel_of_rel (fun _ _ _ hv hw => hv.alike hw) hx hy

namespace Value.Alike

variable {v w : Value}

theorem cases (h : Alike v w) :
    (∃ s, v = .scalar s ∧ w = .scalar s) ∨
    (∃ s t, v = .scalar s ∧ w = .scalar t ∧ s.IsNumber ∧ t.IsNumber) ∨
    (∃ a b, v = .list a ∧ w = .list b ∧ List.Forall₂ Alike a b) ∨
    (∃ a b, v = .record a ∧ w = .record b ∧ Fields.Alike a b) := by
  obtain ⟨o, f, g, hv, hw⟩ := h
  cases hv with
  | null =>
    cases hw
    exact .inl ⟨.null, rfl, rfl⟩
  | bool b =>
    cases hw
    exact .inl ⟨.bool b, rfl, rfl⟩
  | text s =>
    cases hw
    exact .inl ⟨.text s, rfl, rfl⟩
  | integer hs =>
    cases hw with
    | integer ht =>
      exact .inr (.inl ⟨_, _, rfl, rfl, Format.isNumber_of_integer? hs,
        Format.isNumber_of_integer? ht⟩)
  | list ha =>
    cases hw with
    | list hb =>
      exact .inr (.inr (.inl
        ⟨_, _, rfl, rfl, forall₂_of_forall₂ (fun _ _ _ hv hw => hv.alike hw) ha hb⟩))
  | record hna ha =>
    cases hw with
    | record hnb hb =>
      exact .inr (.inr (.inr
        ⟨_, _, rfl, rfl, hna, hnb, fun key => Outline.alike_of_decodes (ha key) (hb key)⟩))

theorem text? (h : Alike v w) : v.text? = w.text? := by
  obtain ⟨s, rfl, rfl⟩ | ⟨s, t, rfl, rfl, hs, ht⟩ | ⟨a, b, rfl, rfl, -⟩ | ⟨a, b, rfl, rfl, -⟩ :=
    h.cases
  · rfl
  · rw [hs.seen.1, ht.seen.1]
  · rfl
  · rfl

theorem bool? (h : Alike v w) : v.bool? = w.bool? := by
  obtain ⟨s, rfl, rfl⟩ | ⟨s, t, rfl, rfl, hs, ht⟩ | ⟨a, b, rfl, rfl, -⟩ | ⟨a, b, rfl, rfl, -⟩ :=
    h.cases
  · rfl
  · rw [hs.seen.2.1, ht.seen.2.1]
  · rfl
  · rfl

theorem isNull (h : Alike v w) : v.isNull = w.isNull := by
  obtain ⟨s, rfl, rfl⟩ | ⟨s, t, rfl, rfl, hs, ht⟩ | ⟨a, b, rfl, rfl, -⟩ | ⟨a, b, rfl, rfl, -⟩ :=
    h.cases
  · rfl
  · rw [hs.seen.2.2.1, ht.seen.2.2.1]
  · rfl
  · rfl

theorem isSome_scalarText? (h : Alike v w) : v.scalarText?.isSome = w.scalarText?.isSome := by
  obtain ⟨s, rfl, rfl⟩ | ⟨s, t, rfl, rfl, hs, ht⟩ | ⟨a, b, rfl, rfl, -⟩ | ⟨a, b, rfl, rfl, -⟩ :=
    h.cases
  · rfl
  · rw [hs.seen.2.2.2, ht.seen.2.2.2]
  · rfl
  · rfl

theorem items? (h : Alike v w) : Option.Rel (List.Forall₂ Alike) v.items? w.items? := by
  obtain ⟨s, rfl, rfl⟩ | ⟨s, t, rfl, rfl, -⟩ | ⟨a, b, rfl, rfl, hab⟩ | ⟨a, b, rfl, rfl, -⟩ :=
    h.cases
  · exact .none
  · exact .none
  · exact .some hab
  · exact .none

theorem fields? (h : Alike v w) : Option.Rel Fields.Alike v.fields? w.fields? := by
  obtain ⟨s, rfl, rfl⟩ | ⟨s, t, rfl, rfl, -⟩ | ⟨a, b, rfl, rfl, -⟩ | ⟨a, b, rfl, rfl, hab⟩ :=
    h.cases
  · exact .none
  · exact .none
  · exact .none
  · rw [Value.fields?_record, Value.fields?_record]
    exact .some hab

end Value.Alike

namespace Fields.Alike

variable {a b : Fields}

theorem given? (h : Alike a b) (key : String) :
    Option.Rel Value.Alike (a.given? key) (b.given? key) :=
  Fields.rel_given? Value.Alike.isNull (h.get? key)

theorem sortedKeys (h : Alike a b) : a.sortedKeys = b.sortedKeys := by
  refine Text.sortTexts_of_perm ((List.perm_ext_iff_of_nodup h.left h.right).mpr fun key => ?_)
  rw [← Fields.get?_isSome_iff, ← Fields.get?_isSome_iff]
  obtain ⟨ha, hb⟩ | ⟨v, w, ha, hb, -⟩ := rel_cases (h.get? key) <;> simp [ha, hb]

theorem sameFields (h : Alike a b) (role : Schema.Role) (known : List String) :
    Schema.SameFields (fun _ => true) (fun _ => Value.Alike) role known a b where
  given? key _ := h.given? key
  unknownKeys path := by rw [Schema.unknownKeys, Schema.unknownKeys, h.sortedKeys]

end Fields.Alike

namespace Schema

theorem simulation_alike : Simulation (fun _ => true) fun _ => Value.Alike where
  text? := Value.Alike.text?
  bool? := Value.Alike.bool?
  isNull := Value.Alike.isNull
  items? := Value.Alike.items?
  fields? h _ := by
    obtain ⟨hv, hw⟩ | ⟨a, b, hv, hw, hab⟩ := rel_cases h.fields? <;> rw [hv, hw]
    · exact .none
    · exact .some (hab.sameFields _ _)

end Schema

structure Review.SameReports (r : Review α) (s : Review β) : Prop where
  findings : r.findings = s.findings
  warnings : r.warnings = s.warnings

namespace Review.SameReports

theorem refl (r : Review α) : SameReports r r := ⟨rfl, rfl⟩

theorem bind {r : Review α} {s : Review β} {f : α → Review γ} {g : β → Review δ}
    (h : SameReports r s) (hfg : SameReports (f r.value) (g s.value)) :
    SameReports (r >>= f) (s >>= g) where
  findings := by rw [Review.findings_bind, Review.findings_bind, h.findings, hfg.findings]
  warnings := by rw [Review.warnings_bind, Review.warnings_bind, h.warnings, hfg.warnings]

theorem pure (x : α) (y : β) : SameReports (Pure.pure x : Review α) (Pure.pure y : Review β) :=
  ⟨rfl, rfl⟩

end Review.SameReports

theorem TextMap.isEmpty_insert (m : TextMap) (key value : String) :
    (m.insert key value).isEmpty = false := by
  have hentry (l : List (String × String)) : (insertEntry key value l).isEmpty = false := by
    cases l with
    | nil => rfl
    | cons e r =>
      rw [insertEntry]
      split
      · rfl
      · split <;> rfl
  exact hentry m.entries

theorem TextMap.isEmpty_ofList (l : List (String × String)) : (ofList l).isEmpty = l.isEmpty := by
  have hfold (l : List (String × String)) {m : TextMap} (hm : m.isEmpty = false) :
      (l.foldl (fun m e => m.insert e.1 e.2) m).isEmpty = false := by
    induction l generalizing m with
    | nil => exact hm
    | cons e r ih => exact ih (isEmpty_insert m e.1 e.2)
  cases l with
  | nil => rfl
  | cons e r => exact hfold r (isEmpty_insert _ _ _)

def Theme.withoutSearch (theme : Theme) : Theme := { theme with search := none }

def Site.withoutTexts (site : Site) : Site :=
  { site with head := none, theme := site.theme.withoutSearch }

@[simp] theorem Site.sidebar_withoutTexts (site : Site) :
    site.withoutTexts.theme.sidebar = site.theme.sidebar := rfl

theorem Site.eq_iff_of_withoutTexts {s t : Site} (h : s.withoutTexts = t.withoutTexts) :
    s = t ↔ s.head = t.head ∧ s.theme.search = t.theme.search := by
  constructor
  · rintro rfl
    exact ⟨rfl, rfl⟩
  · rintro ⟨hhead, hsearch⟩
    obtain ⟨_, _, _, head, ⟨_, _, _, _, search, _, _⟩⟩ := s
    obtain ⟨_, _, _, head', ⟨_, _, _, _, search', _, _⟩⟩ := t
    simp_all [withoutTexts, Theme.withoutSearch]

namespace Schema

section Reports

open Review (SameReports)

variable {a b : Fields} {v w : Value} {x y : Option Value}

theorem scalarEntries_alike (h : Fields.Alike a b) (path : String) (keys : List String) :
    SameReports (scalarEntries path a keys) (scalarEntries path b keys) ∧
      (scalarEntries path a keys).value.isEmpty = (scalarEntries path b keys).value.isEmpty := by
  induction keys with
  | nil => exact ⟨.refl _, rfl⟩
  | cons key r ih =>
    have hsome : ((a.get? key).bind Value.scalarText?).isSome =
        ((b.get? key).bind Value.scalarText?).isSome := by
      obtain ⟨ha, hb⟩ | ⟨v, w, ha, hb, hvw⟩ := rel_cases (h.get? key) <;> rw [ha, hb]
      exact hvw.isSome_scalarText?
    rw [scalarEntries, scalarEntries]
    cases ha : (a.get? key).bind Value.scalarText? <;>
      cases hb : (b.get? key).bind Value.scalarText? <;> rw [ha, hb] at hsome
    · exact ⟨(SameReports.refl _).bind ih.1, ih.2⟩
    · cases hsome
    · cases hsome
    · exact ⟨ih.1.bind (.pure _ _), rfl⟩

theorem textMap_alike (h : Value.Alike v w) (path : String) :
    SameReports (textMap path v) (textMap path w) ∧
      Option.Rel (fun m m' => TextMap.isEmpty m = TextMap.isEmpty m') (textMap path v).value
        (textMap path w).value := by
  rw [textMap, textMap]
  obtain ⟨hv, hw⟩ | ⟨a, b, hv, hw, hab⟩ := rel_cases h.fields? <;> rw [hv, hw]
  · exact ⟨.refl _, .none⟩
  · obtain ⟨hreports, hempty⟩ := scalarEntries_alike hab path a.sortedKeys
    simp only [← hab.sortedKeys]
    refine ⟨⟨hreports.findings, hreports.warnings⟩, ?_⟩
    simp only [hreports.findings]
    split
    · exact .some (by rw [TextMap.isEmpty_ofList, TextMap.isEmpty_ofList, hempty])
    · exact .none

theorem headTagParts_alike {x' y' : Option Value} (hname : Option.Rel Value.Alike x y)
    (hattributes : Option.Rel Value.Alike x' y') (path : String) :
    SameReports (headTagParts path x x') (headTagParts path y y') := by
  rw [headTagParts, headTagParts, nonBlank?_congr (bind_text?_of_rel Value.Alike.text? hname)]
  cases nonBlank? y with
  | none => exact .refl _
  | some name =>
    obtain ⟨rfl, rfl⟩ | ⟨v, w, rfl, rfl, hvw⟩ := rel_cases hattributes
    · exact .refl _
    · simp only [Option.filter_some, hvw.isNull]
      cases w.isNull with
      | true => exact .refl _
      | false => exact (textMap_alike hvw _).1.bind (.pure _ _)

theorem headTag_alike (h : Value.Alike v w) (path : String) :
    SameReports (headTag path v) (headTag path w) := by
  rw [headTag, headTag]
  obtain ⟨hv, hw⟩ | ⟨a, b, hv, hw, hab⟩ := rel_cases h.fields? <;> rw [hv, hw]
  · obtain ⟨hv, hw⟩ | ⟨l, m, hv, hw, hlm⟩ := rel_cases h.items? <;> rw [hv, hw]
    · exact .refl _
    · cases hlm with
      | nil => exact .refl _
      | cons hname hlm =>
        cases hlm with
        | nil => exact headTagParts_alike (.some hname) .none path
        | cons hattributes hlm =>
          cases hlm with
          | nil => exact headTagParts_alike (.some hname) (.some hattributes) path
          | cons => exact .refl _
  · simp only [((hab.sameFields .headTag headKeys).agrees_unknownKeys path).eq]
    exact (SameReports.refl _).bind (headTagParts_alike (hab.get? _) (hab.get? _) path)

theorem collectFrom_reports {read : String → Value → Review (Option α)}
    (hread : ∀ path v w, Value.Alike v w → SameReports (read path v) (read path w))
    {l m : List Value} (h : List.Forall₂ Value.Alike l m) (path : String) (i : Nat) :
    SameReports (collectFrom path read i l) (collectFrom path read i m) := by
  induction h generalizing i with
  | nil => exact .refl _
  | cons hvw _ ih => exact (hread _ _ _ hvw).bind ((ih _).bind (.pure _ _))

theorem sequenceOf_reports {read : String → Value → Review (Option α)}
    (hread : ∀ path v w, Value.Alike v w → SameReports (read path v) (read path w))
    (h : Value.Alike v w) (path : String) :
    SameReports (sequenceOf path read v) (sequenceOf path read w) := by
  simp only [sequenceOf]
  obtain ⟨hv, hw⟩ | ⟨l, m, hv, hw, hlm⟩ := rel_cases h.items? <;> simp only [hv, hw]
  · exact .refl _
  · exact (collectFrom_reports hread hlm _ _).bind (.pure _ _)

theorem optionalField_reports {read : String → Value → Review (Option α)}
    (hread : ∀ path v w, Value.Alike v w → SameReports (read path v) (read path w))
    (h : Fields.Alike a b) (path key : String) :
    SameReports (optionalField path a key read) (optionalField path b key read) := by
  rw [optionalField, optionalField]
  obtain ⟨ha, hb⟩ | ⟨v, w, ha, hb, hvw⟩ := rel_cases (h.given? key) <;> rw [ha, hb]
  · exact .refl _
  · exact hread _ _ _ hvw

theorem searchOptions_alike (h : Option.Rel Value.Alike x y) (path provider : String) :
    SameReports (searchOptions path provider x) (searchOptions path provider y) := by
  obtain ⟨rfl, rfl⟩ | ⟨v, w, rfl, rfl, hvw⟩ := rel_cases h
  · exact .refl _
  · obtain ⟨hreports, hvalues⟩ := textMap_alike hvw path
    refine hreports.bind ?_
    obtain ⟨hv, hw⟩ | ⟨m, m', hv, hw, hempty⟩ := rel_cases hvalues <;> rw [hv, hw]
    · exact .refl _
    · simp only [searchOptions.finish, hempty]
      split
      · exact .refl _
      · exact .pure _ _

theorem search_alike (h : Value.Alike v w) (path : String) :
    SameReports (search path v) (search path w) := by
  rw [search, search]
  obtain ⟨hv, hw⟩ | ⟨a, b, hv, hw, hab⟩ := rel_cases h.fields? <;> rw [hv, hw]
  · exact .refl _
  · have hprovider := bind_text?_of_rel Value.Alike.text? (hab.get? "provider")
    simp only [((hab.sameFields .search searchKeys).agrees_unknownKeys path).eq,
      oneOf_congr hprovider]
    refine (SameReports.refl _).bind ((SameReports.refl _).bind ?_)
    cases (oneOf (fieldPath path "provider") knownProviders (b.get? "provider")).value with
    | none => exact .refl _
    | some provider => exact searchOptions_alike (hab.given? _) _ _

theorem theme_alike (h : Fields.Alike a b) (path : String) :
    SameReports (theme path a) (theme path b) ∧
      (theme path a).value.withoutSearch = (theme path b).value.withoutSearch := by
  have hsearch := optionalField_reports (fun path _ _ h => search_alike h path) h path "search"
  have c := simulation_alike
  have hfields := h.sameFields .theme themeKeys
  have hnav := (hfields.optionalField "nav" (by decide) c.nav path).eq
  have hsidebar :=
    (hfields.optionalField "sidebar" (by decide)
      (c.sequenceOf .sidebarEntry c.sidebarGroup) path).eq
  have hsocial :=
    (hfields.optionalField "socialLinks" (by decide)
      (c.sequenceOf .socialLink c.socialLink) path).eq
  have hfooter := (hfields.optionalField "footer" (by decide) c.footer path).eq
  have hstamp := (hfields.optionalField "lastUpdated" (by decide) c.lastUpdated path).eq
  simp only [theme, (hfields.agrees_unknownKeys path).eq, c.logo hfields, hnav, hsidebar, hsocial,
    hfooter, hstamp]
  refine ⟨?_, rfl⟩
  refine (SameReports.refl _).bind ((SameReports.refl _).bind ((SameReports.refl _).bind ?_))
  refine (SameReports.refl _).bind ((SameReports.refl _).bind (hsearch.bind ?_))
  exact (SameReports.refl _).bind ((SameReports.refl _).bind (.pure _ _))

theorem themeSection_alike (h : Value.Alike v w) (path : String) :
    SameReports (themeSection path v) (themeSection path w) ∧
      (themeSection path v).value.map Theme.withoutSearch =
        (themeSection path w).value.map Theme.withoutSearch := by
  rw [themeSection, themeSection]
  obtain ⟨hv, hw⟩ | ⟨a, b, hv, hw, hab⟩ := rel_cases h.fields? <;> rw [hv, hw]
  · exact ⟨.refl _, rfl⟩
  · obtain ⟨hreports, htheme⟩ := theme_alike hab path
    exact ⟨hreports.bind (.pure _ _), congrArg some htheme⟩

theorem site_alike (h : Fields.Alike a b) :
    SameReports (site a) (site b) ∧ (site a).value.withoutTexts = (site b).value.withoutTexts := by
  have hhead := optionalField_reports (fun path _ _ h =>
    sequenceOf_reports (fun path _ _ h => headTag_alike h path) h path) h "" "head"
  have htheme : SameReports (optionalField "" a "themeConfig" themeSection)
      (optionalField "" b "themeConfig" themeSection) ∧
      ((optionalField "" a "themeConfig" themeSection).value.getD .empty).withoutSearch =
        ((optionalField "" b "themeConfig" themeSection).value.getD .empty).withoutSearch := by
    rw [optionalField, optionalField]
    obtain ⟨ha, hb⟩ | ⟨v, w, ha, hb, hvw⟩ := rel_cases (h.given? "themeConfig") <;> rw [ha, hb]
    · exact ⟨.refl _, rfl⟩
    · obtain ⟨hreports, htheme⟩ := themeSection_alike hvw (fieldPath "" "themeConfig")
      refine ⟨hreports, ?_⟩
      simpa using congrArg (fun t => t.getD Theme.empty.withoutSearch) htheme
  have hfields := h.sameFields .site siteKeys
  simp only [site, (hfields.agrees_unknownKeys "").eq,
    hfields.requiredText simulation_alike (by decide : "title" ∈ siteKeys),
    hfields.requiredText simulation_alike (by decide : "description" ∈ siteKeys),
    hfields.optionalText simulation_alike (by decide : "lang" ∈ siteKeys)]
  constructor
  · refine (SameReports.refl _).bind ((SameReports.refl _).bind ((SameReports.refl _).bind ?_))
    exact (SameReports.refl _).bind (hhead.bind (htheme.1.bind (.pure _ _)))
  · simp only [Site.withoutTexts, Review.value_bind, Review.value_pure, htheme.2]

end Reports

end Schema

theorem build_alike {a b : Fields} (h : Fields.Alike a b) :
    (∃ fault, build a = .error fault ∧ build b = .error fault) ∨
      ∃ r s, build a = .ok r ∧ build b = .ok s ∧ r.warnings = s.warnings ∧
        r.site.withoutTexts = s.site.withoutTexts := by
  obtain ⟨hreports, hsite⟩ := Schema.site_alike h
  have hsidebar : (Schema.site a).value.theme.sidebar = (Schema.site b).value.theme.sidebar := by
    rw [← Site.sidebar_withoutTexts, hsite, Site.sidebar_withoutTexts]
  simp only [build, hreports.findings, hsidebar]
  split
  · exact .inr ⟨_, _, rfl, rfl, hreports.warnings, hsite⟩
  · exact .inl ⟨_, rfl, rfl⟩

end DocSite
