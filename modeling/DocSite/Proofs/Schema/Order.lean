import DocSite.Proofs.Finding
import DocSite.Proofs.Site.Sidebar

namespace DocSite

namespace Schema

def entryFindings (path : String) (read : String → Value → Review (Option α)) (items : List Value) :
    List Finding :=
  (items.mapIdx fun i v => (read (itemPath path i) v).findings).flatten

def sequenceFindings (path : String) (read : String → Value → Review (Option α)) (v : Value) :
    List Finding :=
  match v.items? with
  | none => [.schemaMismatch path "sequence"]
  | some items => entryFindings path read items

def requiredFindings (key : String) : Option Value → List Finding
  | none => [.missingField key]
  | some v =>
    match v.text? with
    | none => [.schemaMismatch key "string"]
    | some s => if Text.isBlankText s then [.missingField key] else []

def optionalFindings (found : Value → List Finding) : Option Value → List Finding
  | none => []
  | some v => found v

def textFindings (path : String) (v : Value) : List Finding :=
  match v.text? with
  | none => [.schemaMismatch path "string"]
  | some _ => []

def themeFindings (v : Value) : List Finding :=
  match v.fields? with
  | none => [.schemaMismatch "themeConfig" "mapping"]
  | some theme =>
    optionalFindings (textFindings "themeConfig.logo") (theme.given? "logo") ++
    optionalFindings (sequenceFindings "themeConfig.nav" navEntry) (theme.given? "nav") ++
    optionalFindings (sequenceFindings "themeConfig.sidebar" sidebarGroup)
      (theme.given? "sidebar") ++
    optionalFindings (sequenceFindings "themeConfig.socialLinks" socialLink)
      (theme.given? "socialLinks") ++
    optionalFindings (fun v => (search "themeConfig.search" v).findings) (theme.given? "search") ++
    optionalFindings (fun v => (footer "themeConfig.footer" v).findings) (theme.given? "footer") ++
    optionalFindings (fun v => (lastUpdated "themeConfig.lastUpdated" v).findings)
      (theme.given? "lastUpdated")

def fieldFindings (declaration : Fields) : List Finding :=
  requiredFindings "title" (declaration.given? "title") ++
  requiredFindings "description" (declaration.given? "description") ++
  optionalFindings (textFindings "lang") (declaration.given? "lang") ++
  optionalFindings (sequenceFindings "head" headTag) (declaration.given? "head") ++
  optionalFindings themeFindings (declaration.given? "themeConfig")

theorem mem_entryFindings {path : String} {read : String → Value → Review (Option α)}
    {items : List Value} {f : Finding} :
    f ∈ entryFindings path read items ↔
      ∃ i v, items[i]? = some v ∧ f ∈ (read (itemPath path i) v).findings := by
  simp only [entryFindings, List.mem_flatten, List.mem_mapIdx]
  constructor
  · rintro ⟨_, ⟨i, hi, rfl⟩, hf⟩
    exact ⟨i, items[i], List.getElem?_eq_getElem hi, hf⟩
  · rintro ⟨i, v, hv, hf⟩
    obtain ⟨hi, rfl⟩ := List.getElem?_eq_some_iff.mp hv
    exact ⟨_, ⟨i, hi, rfl⟩, hf⟩

open Review

@[simp] theorem findings_report (f : Finding) : (report f).findings = [f] := rfl

@[simp] theorem findings_mismatch (path shape : String) :
    (mismatch path shape).findings = [.schemaMismatch path shape] := rfl

@[simp] theorem findings_unknownKeys (path : String) (fields : Fields) (known : List String) :
    (unknownKeys path fields known).findings = [] := rfl

@[simp] theorem findings_labelUse (path : String) (i : Nat) (uses : List (String × Nat))
    (label : String) : (labelUse path i uses label).findings = [] := by
  rw [labelUse]
  split <;> rfl

theorem requiredText_findings (fields : Fields) (key : String) :
    (requiredText fields key).findings = requiredFindings key (fields.given? key) := by
  rw [requiredText]
  cases fields.given? key with
  | none => rfl
  | some v =>
    simp only [requiredFindings]
    cases v.text? with
    | none => rfl
    | some s =>
      by_cases hs : Text.isBlankText s
      · simp [hs, Text.trim_eq_empty_iff.mpr hs]
      · simp [hs, mt Text.trim_eq_empty_iff.mp hs]

theorem optionalText_findings (path : String) (fields : Fields) (key : String) :
    (optionalText path fields key).findings =
      optionalFindings (textFindings (fieldPath path key)) (fields.given? key) := by
  rw [optionalText]
  cases fields.given? key with
  | none => rfl
  | some v =>
    simp only [optionalFindings, textFindings]
    cases v.text? <;> rfl

theorem optionalField_findings (path : String) (fields : Fields) (key : String)
    (read : String → Value → Review (Option α)) :
    (optionalField path fields key read).findings =
      optionalFindings (fun v => (read (fieldPath path key) v).findings) (fields.given? key) := by
  rw [optionalField]
  cases fields.given? key <;> rfl

theorem collectFrom_findings (path : String) (read : String → Value → Review (Option α)) (i : Nat)
    (items : List Value) :
    (collectFrom path read i items).findings =
      (items.mapIdx fun j v => (read (itemPath path (j + i)) v).findings).flatten := by
  induction items generalizing i with
  | nil => rfl
  | cons v r ih =>
    rw [collectFrom, List.mapIdx_cons, List.flatten_cons]
    simp [ih, Nat.add_assoc, Nat.add_comm 1]

theorem sequenceOf_findings (path : String) (read : String → Value → Review (Option α))
    (v : Value) :
    (sequenceOf path read v).findings = sequenceFindings path read v := by
  rw [sequenceOf, sequenceFindings]
  cases v.items? with
  | none => rfl
  | some items => simp [collectFrom_findings, entryFindings]

theorem navFrom_findings (path : String) (i : Nat) (uses : List (String × Nat))
    (items : List Value) :
    (navFrom path i uses items).findings =
      (items.mapIdx fun j v => (navEntry (itemPath path (j + i)) v).findings).flatten := by
  induction items generalizing i uses with
  | nil => rfl
  | cons v r ih =>
    rw [navFrom, List.mapIdx_cons, List.flatten_cons, findings_bind]
    cases (navEntry (itemPath path i) v).value with
    | none => simp [ih, Nat.add_assoc, Nat.add_comm 1]
    | some item => simp [ih, Nat.add_assoc, Nat.add_comm 1]

theorem nav_findings (path : String) (v : Value) :
    (nav path v).findings = sequenceFindings path navEntry v := by
  cases v with
  | sequence kind items => simp [nav, navFrom_findings, sequenceFindings, entryFindings]
  | _ => rw [nav] <;> simp [sequenceFindings, Value.items?]

theorem logo_findings (path : String) (fields : Fields) :
    (logo path fields).findings =
      optionalFindings (textFindings (fieldPath path "logo")) (fields.given? "logo") := by
  simp [logo, optionalText_findings]

theorem themeSection_findings (v : Value) :
    (themeSection "themeConfig" v).findings = themeFindings v := by
  rw [themeSection, themeFindings]
  cases v.fields? with
  | none => rfl
  | some fields =>
    simp only [theme, findings_bind, findings_pure, findings_unknownKeys, logo_findings,
      optionalField_findings, nav_findings, sequenceOf_findings, List.nil_append, List.append_nil,
      List.append_assoc]
    rfl

theorem site_findings (declaration : Fields) :
    (site declaration).findings = fieldFindings declaration := by
  have hroot : ∀ key, fieldPath "" key = key := fun _ => if_pos rfl
  simp only [site, findings_bind, findings_pure, findings_unknownKeys, requiredText_findings,
    optionalText_findings, optionalField_findings, sequenceOf_findings, hroot,
    themeSection_findings, List.nil_append, List.append_nil, fieldFindings, List.append_assoc]

theorem navEntry_findings {path text : String} {v w : Value} {fields : Fields} {items : List Value}
    (hv : v.fields? = some fields) (htext : fields.HasText "text" text)
    (hlink : fields.given? "link" = none) (hbelow : fields.given? "items" = some w)
    (hw : w.items? = some items) (hne : items ≠ []) :
    (navEntry path v).findings = (nav (fieldPath path "items") w).findings := by
  obtain ⟨kind, rfl⟩ := Value.fields?_eq_some_iff.mp hv
  have hkeyed : Value.textKeyed? (fields.map fun f => (.text f.1, f.2)) = some fields := hv
  have hbelow' := navBelow_eq (Fields.given?_eq_some_iff.mp hbelow).1 (fieldPath path "items")
  rw [navEntry, hkeyed]
  simp only [label, nonBlank?_eq_some_iff.mpr htext, hlink, hbelow, hbelow', Option.isSome_some,
    findings_bind, findings_unknownKeys, findings_pure, value_pure, List.nil_append]
  split
  case h_1 => rw [findings_pure, List.append_nil]
  case h_2 hno =>
    have hfound : (nav (fieldPath path "items") w).findings.isEmpty = false := by
      rw [List.isEmpty_eq_false_iff]
      intro hnil
      obtain ⟨l, hl, values, hvalues, hall⟩ := (nav_reads _ w _).mp ⟨hnil, rfl⟩
      obtain rfl := Option.some.inj (hw.symm.trans hvalues)
      cases hall with
      | nil => exact hne rfl
      | cons _ _ => exact hno _ _ hl
    rw [hfound, if_neg Bool.false_ne_true, findings_pure, List.append_nil]

def flagFindings (path : String) (v : Value) : List Finding :=
  match v.bool? with
  | none => [.schemaMismatch path "boolean"]
  | some _ => []

theorem collapsedMark_findings (path : String) (isLink : Bool) (v : Option Value) :
    (collapsedMark path isLink v).findings = optionalFindings (flagFindings path) v := by
  cases v with
  | none => rfl
  | some v =>
    rw [collapsedMark, optionalFindings, flagFindings]
    cases v.bool? with
    | none => rfl
    | some b => cases isLink <;> rfl

theorem groupItems_findings {path : String} {v : Value} {items : List Value}
    (hv : v.items? = some items) (hne : items ≠ []) :
    (groupItems path v).findings = entryFindings path sidebarItem items := by
  rw [groupItems, hv]
  cases items with
  | nil => exact absurd rfl hne
  | cons first others => simp [collectFrom_findings, entryFindings]

theorem sidebarGroup_findings {path text : String} {v w : Value} {fields : Fields}
    (hv : v.fields? = some fields) (htext : fields.HasText "text" text)
    (hlink : fields.given? "link" = none) (hbelow : fields.given? "items" = some w) :
    (sidebarGroup path v).findings =
      optionalFindings (flagFindings (fieldPath path "collapsed")) (fields.given? "collapsed") ++
        (groupItems (fieldPath path "items") w).findings := by
  rw [sidebarGroup, hv]
  simp only [label, nonBlank?_eq_some_iff.mpr htext, hlink, hbelow, findings_bind, value_pure,
    findings_unknownKeys, findings_pure, collapsedMark_findings, List.nil_append, List.append_nil]

/-- What is found about a sequence is found about its entries, one after the other, and an entry
that is put in the place of another changes nothing that is found about the rest. -/
structure EntryByEntry (path : String) (read : String → Value → Review (Option α))
    (found : List Value → List Finding) : Prop where
  concat : ∀ items, items ≠ [] → found items = entryFindings path read items
  exchange : ∀ before v w after, ∃ a b,
    found (before ++ v :: after) = a ++ (read (itemPath path before.length) v).findings ++ b ∧
      found (before ++ w :: after) = a ++ (read (itemPath path before.length) w).findings ++ b

theorem EntryByEntry.of_concat {path : String} {read : String → Value → Review (Option α)}
    {found : List Value → List Finding}
    (h : ∀ items, items ≠ [] → found items = entryFindings path read items) :
    EntryByEntry path read found where
  concat := h
  exchange before v w after := by
    refine ⟨entryFindings path read before, (after.mapIdx fun i v =>
      (read (itemPath path (i + 1 + before.length)) v).findings).flatten, ?_, ?_⟩
    all_goals
      rw [h _ (by simp)]
      simp [entryFindings, List.mapIdx_append, List.mapIdx_cons]

theorem sequenceOf_entryByEntry (path : String) (kind : SequenceKind)
    (read : String → Value → Review (Option α)) :
    EntryByEntry path read fun items => (sequenceOf path read (.sequence kind items)).findings :=
  .of_concat fun items _ => sequenceOf_findings path read (.sequence kind items)

/-- All walks of the schema go entry by entry, wherever they start: those through the sequences of
the site and its theme, through the menus of the navigation at any depth, and through the groups of
the sidebar. -/
structure WalksInOrder (path : String) (kind : SequenceKind) : Prop where
  head : EntryByEntry path headTag fun items =>
    (sequenceOf path headTag (.sequence kind items)).findings
  nav : EntryByEntry path navEntry fun items => (nav path (.sequence kind items)).findings
  menu : ∀ {v : Value} {fields : Fields} {text : String} {items : List Value},
    v.fields? = some fields → fields.HasText "text" text → fields.given? "link" = none →
    fields.given? "items" = some (.sequence kind items) → items ≠ [] →
    (navEntry path v).findings = entryFindings (fieldPath path "items") navEntry items
  sidebar : EntryByEntry path sidebarGroup fun items =>
    (sequenceOf path sidebarGroup (.sequence kind items)).findings
  groupItems : EntryByEntry path sidebarItem fun items =>
    (groupItems path (.sequence kind items)).findings
  group : ∀ {v : Value} {fields : Fields} {text : String} {items : List Value},
    v.fields? = some fields → fields.HasText "text" text → fields.given? "link" = none →
    fields.given? "items" = some (.sequence kind items) → items ≠ [] →
    (sidebarGroup path v).findings =
      optionalFindings (flagFindings (fieldPath path "collapsed")) (fields.given? "collapsed") ++
        entryFindings (fieldPath path "items") sidebarItem items
  socialLinks : EntryByEntry path socialLink fun items =>
    (sequenceOf path socialLink (.sequence kind items)).findings

theorem walksInOrder (path : String) (kind : SequenceKind) : WalksInOrder path kind where
  head := sequenceOf_entryByEntry path kind headTag
  nav := .of_concat fun items _ => nav_findings path (.sequence kind items)
  menu hv htext hlink hbelow hne := by
    rw [navEntry_findings hv htext hlink hbelow rfl hne, nav_findings]
    rfl
  sidebar := sequenceOf_entryByEntry path kind sidebarGroup
  groupItems := .of_concat fun items hne => groupItems_findings rfl hne
  group hv htext hlink hbelow hne := by
    rw [sidebarGroup_findings hv htext hlink hbelow, groupItems_findings rfl hne]
  socialLinks := sequenceOf_entryByEntry path kind socialLink

end Schema

def faultFindings : Except Fault Report → List Finding
  | .ok _ => []
  | .error fault => fault.findings

theorem faultFindings_build (declaration : Fields) :
    faultFindings (build declaration) = (Schema.site declaration).findings ++
      duplicateLinks ((Schema.site declaration).value.theme.sidebar.getD []) := by
  cases h : build declaration with
  | error fault => exact findings_of_build h
  | ok r =>
    obtain ⟨hd, hfree, _⟩ := build_eq_ok_iff.mp h
    have hy := Schema.site_yields.mpr hd
    rw [hy.findings, hy.value, duplicateLinks_eq_nil_iff.mpr hfree]
    rfl

/-- A build says what is wrong with the fields in their order, each by its own value, and then which
links are repeated in the sidebar as far as it could be read. -/
theorem faultFindings_build_in_order (declaration : Fields) :
    faultFindings (build declaration) = Schema.fieldFindings declaration ++
        duplicateLinks ((Schema.site declaration).value.theme.sidebar.getD []) ∧
      ∀ path kind, Schema.WalksInOrder path kind :=
  ⟨by rw [faultFindings_build, Schema.site_findings], Schema.walksInOrder⟩

end DocSite
