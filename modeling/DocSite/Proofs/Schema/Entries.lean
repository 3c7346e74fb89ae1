import DocSite.Proofs.Schema.Place
import DocSite.Proofs.Site.Reconcile
import Mathlib.Data.List.ReduceOption

namespace DocSite

section HeadTag

def HeadTag.shown (key value : String) : String :=
  if (key = "href" ∨ key = "src") ∧ value ≠ "" then Link.normalize value else value

inductive HeadTag.ImageOf : Value → HeadTag → Prop
  | bare {v : Value} {attributes : Option Value} {raw : String} :
    HeadTag.Form v (some (.text raw)) attributes →
      (attributes.filter fun w => !w.isNull) = none → HeadTag.ImageOf v ⟨Text.trim raw, none⟩
  | attributed {v w : Value} {attributes : Option Value} {raw : String} {fields : Fields}
      {shown : TextMap} :
    HeadTag.Form v (some (.text raw)) attributes →
      (attributes.filter fun w => !w.isNull) = some w → w.fields? = some fields →
      (∀ key, (shown.get? key).map some =
        (fields.get? key).map fun x => x.scalarText?.map (HeadTag.shown key)) →
      HeadTag.ImageOf v ⟨Text.trim raw, some shown⟩

def HeadTag.SameParts (v w : Value) : Prop :=
  ∃ name a b, HeadTag.Form v name a ∧ HeadTag.Form w name b ∧
    (a.filter fun x => !x.isNull) = b.filter fun x => !x.isNull

theorem get?_normalizeAssets (m : TextMap) (key : String) :
    (Schema.normalizeAssets m).get? key = (m.get? key).map (HeadTag.shown key) := by
  rw [Schema.normalizeAssets, TextMap.get?_mapValues]
  congr 1
  funext value
  simp [HeadTag.shown, Schema.assetAttributes]

theorem HeadTag.DeclaredBy.imageOf {v : Value} {tag : HeadTag} (h : HeadTag.DeclaredBy v tag) :
    HeadTag.ImageOf v tag := by
  obtain ⟨_, attributes, hform, ⟨rfl, _, htexts⟩⟩ := h
  generalize hattributes : (attributes.filter fun w => !w.isNull) = given at htexts
  cases htexts with
  | none => exact .bare hform hattributes
  | some hw =>
    obtain ⟨fields, hfields, hkeys⟩ := hw
    refine .attributed hform hattributes hfields fun key => ?_
    have hshown := congrArg (Option.map (Option.map (HeadTag.shown key))) (hkeys key)
    simp only [Option.map_map] at hshown
    rw [get?_normalizeAssets, Option.map_map]
    exact hshown.symm

theorem Schema.headTag_of_form {path : String} {v : Value} {name attributes : Option Value}
    (h : HeadTag.Form v name attributes) :
    (headTag path v).value = (headTagParts path name attributes).value ∧
      (headTag path v).findings = (headTagParts path name attributes).findings := by
  rw [headTag]
  cases h with
  | mapping hv => simp [hv]
  | single hv => simp [hv, Value.fields?_of_items? hv]
  | pair hv => simp [hv, Value.fields?_of_items? hv]

theorem HeadTag.SameParts.headTag_eq {v w : Value} (h : HeadTag.SameParts v w) (path : String) :
    (Schema.headTag path v).value = (Schema.headTag path w).value ∧
      (Schema.headTag path v).findings = (Schema.headTag path w).findings := by
  obtain ⟨name, a, b, hv, hw, hab⟩ := h
  have hparts : Schema.headTagParts path name a = Schema.headTagParts path name b := by
    rw [Schema.headTagParts, Schema.headTagParts, hab]
  rw [(Schema.headTag_of_form hv).1, (Schema.headTag_of_form hv).2, (Schema.headTag_of_form hw).1,
    (Schema.headTag_of_form hw).2, hparts]
  exact ⟨rfl, rfl⟩

end HeadTag

/-- Every list of a configuration has the images of the declared entries, one for each, in order. -/
structure Site.Mirrors (declaration : Fields) (site : Site) : Prop where
  head : Option.Rel (Value.ListOf HeadTag.ImageOf) (declaration.given? "head") site.head
  nav : Option.Rel (Value.ListOf NavItem.DeclaredBy) (declaration.givenInTheme? "nav")
    site.theme.nav
  sidebar : Option.Rel (Value.ListOf SidebarGroup.DeclaredBy) (declaration.givenInTheme? "sidebar")
    site.theme.sidebar
  socialLinks : Option.Rel (Value.ListOf SocialLink.DeclaredBy)
    (declaration.givenInTheme? "socialLinks") site.theme.socialLinks

theorem Value.ListOf.imp {R S : Value → α → Prop} (h : ∀ v a, R v a → S v a) {v : Value}
    {l : List α} (hl : v.ListOf R l) : v.ListOf S l := by
  obtain ⟨items, hitems, hall⟩ := hl
  exact ⟨items, hitems, hall.imp h⟩

theorem rel_imp {R S : α → β → Prop} (h : ∀ a b, R a b → S a b) {x : Option α} {y : Option β}
    (hr : Option.Rel R x y) : Option.Rel S x y := by
  cases hr with
  | none => exact .none
  | some ha => exact .some (h _ _ ha)

theorem Site.DeclaredBy.exists_theme {declaration : Fields} {site : Site}
    (h : Site.DeclaredBy declaration site) :
    ∃ fields : Fields, Theme.DeclaredBy fields site.theme ∧
      ∀ key, declaration.givenInTheme? key = fields.given? key := by
  obtain ⟨theme, hrel, htheme⟩ := h.theme
  generalize hgiven : declaration.given? "themeConfig" = given at hrel
  cases hrel with
  | none =>
    refine ⟨[], ?_, fun key => by rw [Fields.givenInTheme?, hgiven]; rfl⟩
    rw [htheme]
    exact ⟨.absent rfl, .none, .none, .none, .none, .none, rfl⟩
  | some hf =>
    obtain ⟨fields, hfields, hdeclared⟩ := hf
    refine ⟨fields, htheme ▸ hdeclared, fun key => ?_⟩
    simp [Fields.givenInTheme?, hgiven, hfields]

theorem Site.DeclaredBy.mirrors {declaration : Fields} {site : Site}
    (h : Site.DeclaredBy declaration site) : Site.Mirrors declaration site := by
  obtain ⟨fields, htheme, hkeys⟩ := h.exists_theme
  constructor
  case head => exact rel_imp (fun _ _ hl => hl.imp fun _ _ => HeadTag.DeclaredBy.imageOf) h.head
  case nav => exact hkeys "nav" ▸ htheme.nav
  case sidebar => exact hkeys "sidebar" ▸ htheme.sidebar
  case socialLinks => exact hkeys "socialLinks" ▸ htheme.socialLinks

namespace Schema

def images (path : String) (read : String → Value → Review (Option α)) (entries : List Value) :
    List (Option α) :=
  entries.mapIdx fun i v => (read (itemPath path i) v).value

/-- What was kept of a sequence are the images of its entries, in order, and where an entry has no
image, a finding at the place of the entry tells of it. -/
structure Accounted (found : List Finding) (path : String)
    (read : String → Value → Review (Option α)) (entries : List Value) (kept : List α) : Prop where
  images : kept = (images path read entries).reduceOption
  reported : ∀ i, (Schema.images path read entries)[i]? = some none →
    ∃ f ∈ found, f.Under (itemPath path i)

def ListAccounted (found : List Finding) (path : String)
    (read : String → Value → Review (Option α)) (v : Option Value) (kept : Option (List α)) :
    Prop :=
  ∀ w ∈ v, ∀ entries, w.items? = some entries →
    ∃ l, kept = some l ∧ Accounted found path read entries l

theorem collectFrom_value (path : String) (read : String → Value → Review (Option α)) (i : Nat)
    (items : List Value) :
    (collectFrom path read i items).value =
      (items.mapIdx fun j v => (read (itemPath path (j + i)) v).value).reduceOption := by
  induction items generalizing i with
  | nil => rfl
  | cons v r ih =>
    rw [collectFrom, List.mapIdx_cons]
    cases h : (read (itemPath path i) v).value <;>
      simp [h, ih, Nat.add_assoc, Nat.add_comm 1]

theorem navFrom_value (path : String) (i : Nat) (uses : List (String × Nat)) (items : List Value) :
    (navFrom path i uses items).value =
      (items.mapIdx fun j v => (navEntry (itemPath path (j + i)) v).value).reduceOption := by
  induction items generalizing i uses with
  | nil => rfl
  | cons v r ih =>
    rw [navFrom, List.mapIdx_cons, Review.value_bind]
    cases h : (navEntry (itemPath path i) v).value <;>
      simp [h, ih, Nat.add_assoc, Nat.add_comm 1]

structure Walks (readAll : String → Value → Review (Option (List α)))
    (read : String → Value → Review (Option α)) : Prop where
  value : ∀ {path : String} {v : Value} {items : List Value}, v.items? = some items →
    (readAll path v).value = some (images path read items).reduceOption
  findings : ∀ {path : String} {v : Value} {items : List Value}, v.items? = some items →
    (readAll path v).findings = entryFindings path read items

theorem sequenceOf_walks (read : String → Value → Review (Option α)) :
    Walks (fun path v => sequenceOf path read v) read where
  value hv := by simp [sequenceOf, hv, collectFrom_value, images]
  findings hv := by simp [sequenceOf_findings, sequenceFindings, hv]

theorem nav_walks : Walks nav navEntry where
  value {_ v _} hv := by
    cases v with
    | sequence kind items =>
      obtain rfl := Option.some.inj hv
      simp [nav, navFrom_value, images]
    | _ => cases hv
  findings hv := by simp [nav_findings, sequenceFindings, hv]

/-- A reader that gives nothing says why, and says it at the place it was given. -/
structure Outspoken (read : String → Value → Review (Option α)) : Prop where
  findings_ne_nil : ∀ path v, (read path v).value = none → (read path v).findings ≠ []
  under : ∀ path v, (read path v).Under path

theorem Reads.findings_ne_nil {read : String → Value → Review (Option α)} {R : Value → α → Prop}
    (h : Reads read R) (path : String) (v : Value) (hv : (read path v).value = none) :
    (read path v).findings ≠ [] := by
  intro hnil
  obtain ⟨a, ha, _⟩ := (h path v _).mp ⟨hnil, rfl⟩
  cases hv.symm.trans ha

theorem headTag_outspoken : Outspoken headTag := ⟨headTag_reads.findings_ne_nil, headTag_under⟩

theorem navEntry_outspoken : Outspoken navEntry :=
  ⟨Reads.findings_ne_nil fun path v o => (navEntry_nav_yields v).1 path o,
    fun path v => (navEntry_nav_under v).1 path⟩

theorem sidebarGroup_outspoken : Outspoken sidebarGroup :=
  ⟨sidebarGroup_reads.findings_ne_nil, sidebarGroup_under⟩

theorem sidebarItem_outspoken : Outspoken sidebarItem :=
  ⟨sidebarItem_reads.findings_ne_nil, sidebarItem_under⟩

theorem socialLink_outspoken : Outspoken socialLink :=
  ⟨socialLink_reads.findings_ne_nil, socialLink_under⟩

section Accounted

variable {read : String → Value → Review (Option α)} {found : List Finding} {path : String}

theorem Outspoken.accounted (h : Outspoken read) {entries : List Value}
    (hfound : entryFindings path read entries ⊆ found) :
    Accounted found path read entries (images path read entries).reduceOption where
  images := rfl
  reported i hi := by
    rw [images, List.getElem?_mapIdx, Option.map_eq_some_iff] at hi
    obtain ⟨v, hv, hnone⟩ := hi
    obtain ⟨f, hf⟩ := List.exists_mem_of_ne_nil _ (h.findings_ne_nil _ v hnone)
    exact ⟨f, hfound (mem_entryFindings.mpr ⟨i, v, hv, hf⟩), h.under _ v f hf⟩

theorem Walks.listAccounted {readAll : String → Value → Review (Option (List α))}
    (hw : Walks readAll read) (h : Outspoken read) {fields : Fields} {key : String}
    (hfound : (optionalField path fields key readAll).findings ⊆ found) :
    ListAccounted found (fieldPath path key) read (fields.given? key)
      (optionalField path fields key readAll).value := by
  intro v hv entries hentries
  rw [Option.mem_def] at hv
  rw [optionalField, hv] at hfound ⊢
  simp only [hw.findings hentries] at hfound
  exact ⟨_, hw.value hentries, h.accounted hfound⟩

end Accounted

theorem exists_theme (declaration : Fields) :
    ∃ fields : Fields, (site declaration).value.theme = (theme "themeConfig" fields).value ∧
      (theme "themeConfig" fields).findings ⊆ (site declaration).findings ∧
      ∀ key, declaration.givenInTheme? key = fields.given? key := by
  have hroot : fieldPath "" "themeConfig" = "themeConfig" := if_pos rfl
  have htheme : (site declaration).value.theme =
      (optionalField "" declaration "themeConfig" themeSection).value.getD .empty := rfl
  have hfound : (optionalField "" declaration "themeConfig" themeSection).findings ⊆
      (site declaration).findings := fun f hf => by simp [site, hf]
  rw [htheme]
  rw [optionalField, hroot] at hfound ⊢
  simp only [Fields.givenInTheme?]
  cases hgiven : declaration.given? "themeConfig" with
  | none => exact ⟨[], rfl, List.nil_subset _, fun _ => rfl⟩
  | some v =>
    cases hv : v.fields? with
    | none =>
      refine ⟨[], by simp [themeSection, hv]; rfl, List.nil_subset _, fun key => ?_⟩
      rw [Option.bind_some, hv]
      rfl
    | some fields =>
      simp only [hgiven, themeSection, hv] at hfound
      refine ⟨fields, by simp [themeSection, hv], fun f hf => hfound (by simpa using hf),
        fun key => ?_⟩
      rw [Option.bind_some, hv]
      rfl

theorem groupItems_value {path : String} {v : Value} {items : List Value}
    (hv : v.items? = some items) (hne : items ≠ []) :
    (groupItems path v).value = some (images path sidebarItem items).reduceOption := by
  rw [groupItems, hv]
  cases items with
  | nil => exact absurd rfl hne
  | cons first others => simp [collectFrom_value, images]

theorem groupItems_of_value {path : String} {v w : Value} {fields : Fields} {group : SidebarGroup}
    {entries : List Value} (hgroup : (sidebarGroup path v).value = some group)
    (hv : v.fields? = some fields) (hw : fields.given? "items" = some w)
    (hentries : w.items? = some entries) :
    group.items = (images (fieldPath path "items") sidebarItem entries).reduceOption ∧
      entryFindings (fieldPath path "items") sidebarItem entries ⊆
        (sidebarGroup path v).findings := by
  cases htext : nonBlank? (fields.get? "text") with
  | none => simp [sidebarGroup, hv, label, htext] at hgroup
  | some text =>
    cases hlink : fields.given? "link" with
    | some link => simp [sidebarGroup, hv, label, htext, hlink, hw] at hgroup
    | none =>
      by_cases hne : entries = []
      · subst hne
        simp [sidebarGroup, hv, label, htext, hlink, hw, groupItems, hentries] at hgroup
      · constructor
        · rw [sidebarGroup, hv] at hgroup
          simp only [label, htext, hlink, hw, groupItems_value hentries hne, Review.value_bind,
            Review.value_pure, Option.map_some, Option.some.injEq] at hgroup
          rw [← hgroup]
        · rw [sidebarGroup_findings hv (nonBlank?_eq_some_iff.mp htext) hlink hw,
            groupItems_findings hentries hne]
          exact List.subset_append_right _ _

end Schema

/-- Every list of a configuration that was read in part is accounted for, and so are the links of
every group of the sidebar that was kept. -/
structure Site.Accounted (declaration : Fields) (found : List Finding) (site : Site) : Prop where
  head : Schema.ListAccounted found "head" Schema.headTag (declaration.given? "head") site.head
  nav : Schema.ListAccounted found "themeConfig.nav" Schema.navEntry
    (declaration.givenInTheme? "nav") site.theme.nav
  sidebar : Schema.ListAccounted found "themeConfig.sidebar" Schema.sidebarGroup
    (declaration.givenInTheme? "sidebar") site.theme.sidebar
  socialLinks : Schema.ListAccounted found "themeConfig.socialLinks" Schema.socialLink
    (declaration.givenInTheme? "socialLinks") site.theme.socialLinks
  groupItems : ∀ {sidebar v : Value} {entries : List Value} {i : Nat} {group : SidebarGroup}
    {fields : Fields},
    declaration.givenInTheme? "sidebar" = some sidebar → sidebar.items? = some entries →
    entries[i]? = some v →
    (Schema.sidebarGroup (Schema.itemPath "themeConfig.sidebar" i) v).value = some group →
    v.fields? = some fields →
    Schema.ListAccounted found (Schema.fieldPath (Schema.itemPath "themeConfig.sidebar" i) "items")
      Schema.sidebarItem (fields.given? "items") (some group.items)

theorem Schema.site_accounted {declaration : Fields} {found : List Finding}
    (hfound : (site declaration).findings ⊆ found) :
    Site.Accounted declaration found (site declaration).value := by
  obtain ⟨fields, htheme, hsub, hkeys⟩ := exists_theme declaration
  have hhead : (optionalField "" declaration "head" fun p v => sequenceOf p headTag v).findings ⊆
      found := fun f hf => hfound (by simp [site, hf])
  have hnav : (optionalField "themeConfig" fields "nav" nav).findings ⊆ found :=
    fun f hf => hfound (hsub (by simp [theme, hf]))
  have hsidebar : (optionalField "themeConfig" fields "sidebar" fun p v =>
      sequenceOf p sidebarGroup v).findings ⊆ found :=
    fun f hf => hfound (hsub (by simp [theme, hf]))
  have hsocial : (optionalField "themeConfig" fields "socialLinks" fun p v =>
      sequenceOf p socialLink v).findings ⊆ found :=
    fun f hf => hfound (hsub (by simp [theme, hf]))
  constructor
  case head => exact (sequenceOf_walks headTag).listAccounted headTag_outspoken hhead
  case nav =>
    rw [hkeys, htheme]
    exact nav_walks.listAccounted navEntry_outspoken hnav
  case sidebar =>
    rw [hkeys, htheme]
    exact (sequenceOf_walks sidebarGroup).listAccounted sidebarGroup_outspoken hsidebar
  case socialLinks =>
    rw [hkeys, htheme]
    exact (sequenceOf_walks socialLink).listAccounted socialLink_outspoken hsocial
  case groupItems =>
    intro sidebar v entries i group inner hgiven hentries hv hgroup hinner w hw items hitems
    obtain ⟨hkept, hbelow⟩ := groupItems_of_value hgroup hinner hw hitems
    rw [optionalField, ← hkeys, hgiven] at hsidebar
    simp only [(sequenceOf_walks sidebarGroup).findings hentries] at hsidebar
    refine ⟨_, rfl, hkept ▸ sidebarItem_outspoken.accounted fun f hf => ?_⟩
    exact hsidebar (mem_entryFindings.mpr ⟨i, v, hv, hbelow hf⟩)

/-- No entry of a declaration is lost without a word. What a build gives mirrors the declaration
entry by entry, a head tag is read alike in both of its forms, and where a build fails, every entry
that is missing from what was read has a finding at its own place. -/
theorem build_accounts_for_entries (declaration : Fields) :
    (∀ r, build declaration = .ok r → Site.Mirrors declaration r.site) ∧
    (∀ path v w, HeadTag.SameParts v w →
      (Schema.headTag path v).value = (Schema.headTag path w).value ∧
        (Schema.headTag path v).findings = (Schema.headTag path w).findings) ∧
    ∀ fault, build declaration = .error fault →
      Site.Accounted declaration fault.findings (Schema.site declaration).value := by
  refine ⟨fun r hr => (build_eq_ok_iff.mp hr).1.mirrors, fun path _ _ h => h.headTag_eq path,
    fun fault hfault => Schema.site_accounted ?_⟩
  rw [findings_of_build hfault]
  exact List.subset_append_left _ _

example :
    let head := Schema.site [("title", .text "Docs"), ("description", .text "All of it"),
      ("head", .list [.list [.text " meta "], .list [.null], .record [("tagName", .text "base")]])]
    head.value.head = some [⟨"meta", none⟩, ⟨"base", none⟩] ∧
      head.findings.map Finding.location = ["head[1].tagName"] := by
  decide +kernel

end DocSite
