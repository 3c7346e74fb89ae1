import DocSite.Proofs.Fields
import DocSite.Proofs.Schema.Order
import DocSite.Proofs.Schema.Part

/-!
What a declaration is warned about. Most readers warn of nothing but the unknown keys of the
mapping they are given. The warnings of the whole schema are compared with what there is to note
about the parts of a declaration reader by reader, for any comparison that goes through one after
the other; two such comparisons give the warnings of unknown keys of every declaration, and all
warnings of those that are accepted.
-/

namespace DocSite.Schema

section Silent

variable (path : String) (fields : Fields) (key : String)

@[simp] theorem warnings_mismatch (path shape : String) :
    (Review.mismatch path shape).warnings = [] := rfl

@[simp] theorem requiredText_warnings : (requiredText fields key).warnings = [] := by
  rw [requiredText]
  split
  · rfl
  · split
    · rfl
    · dsimp only
      split <;> rfl

@[simp] theorem optionalText_warnings : (optionalText path fields key).warnings = [] := by
  rw [optionalText]
  split
  · rfl
  · split <;> rfl

@[simp] theorem label_warnings : (label path fields).warnings = [] := by
  rw [label]
  split <;> rfl

@[simp] theorem scalarEntries_warnings (keys : List String) :
    (scalarEntries path fields keys).warnings = [] := by
  induction keys with
  | nil => rfl
  | cons key r ih =>
    rw [scalarEntries]
    split <;> simp [ih]

@[simp] theorem textMap_warnings (v : Value) : (textMap path v).warnings = [] := by
  rw [textMap]
  split <;> simp

@[simp] theorem oneOf_warnings (known : List String) (v : Option Value) :
    (oneOf path known v).warnings = [] := by
  rw [oneOf]
  split
  · split <;> rfl
  · rfl

@[simp] theorem entryLink_warnings (v : Value) : (entryLink path v).warnings = [] := by
  rw [entryLink]
  split <;> rfl

@[simp] theorem headTagParts_warnings (name attributes : Option Value) :
    (headTagParts path name attributes).warnings = [] := by
  rw [headTagParts]
  split
  · rfl
  · split <;> simp

@[simp] theorem socialTarget_warnings (v : Option Value) :
    (socialTarget path v).warnings = [] := by
  rw [socialTarget]
  split
  · rfl
  · split <;> rfl

@[simp] theorem searchOptions_warnings (provider : String) (v : Option Value) :
    (searchOptions path provider v).warnings = [] := by
  have hfinish : ∀ options, (searchOptions.finish path provider options).warnings = [] := by
    intro options
    rw [searchOptions.finish]
    split <;> rfl
  rw [searchOptions.eq_def]
  split
  · exact hfinish _
  · simp only [Review.warnings_bind, textMap_warnings, List.nil_append]
    split
    · rfl
    · exact hfinish _

@[simp] theorem style_warnings (standard : String) :
    (style path fields key standard).warnings = [] := by
  rw [style]
  split <;> simp

@[simp] theorem logo_warnings : (logo path fields).warnings = [] := by
  simp [logo]

end Silent

/-- A way to hold the warnings of a reading against what there is to note, where its findings allow
it. It goes through one reader after the other, goes into the entries that reading goes into, and
has a way with the marks of sidebar entries and the labels of navigation entries. -/
structure Comparison (allowed : List Finding → Prop) (same : List Warning → List Warning → Prop)
    (enters : Role → Fields → Bool) : Prop where
  left : ∀ {a b}, allowed (a ++ b) → allowed a
  right : ∀ {a b}, allowed (a ++ b) → allowed b
  refl : ∀ l, same l l
  append : ∀ {a b c d}, same a b → same c d → same (a ++ c) (b ++ d)
  enters_of_ne : ∀ {role fields}, role ≠ .navEntry → role ≠ .sidebarEntry →
    enters role fields = true
  enters_of_allowed : ∀ {role : Role} {fields found}, allowed found →
    (role.enters fields = false → found ≠ []) → enters role fields = role.enters fields
  mark : ∀ {path isLink v}, allowed (collapsedMark path isLink v).findings →
    same (collapsedMark path isLink v).warnings (idleMark path isLink v)
  unread : ∀ {path isLink v found}, allowed found → found ≠ [] → same [] (idleMark path isLink v)
  labels : ∀ {path entries}, (∀ v ∈ entries, ∀ path, allowed (navEntry path v).findings →
      same (navEntry path v).warnings (notes enters .navEntry path v)) →
    allowed (navFrom path 0 [] entries).findings →
      same (navFrom path 0 [] entries).warnings
        (repeatedLabels path entries ++
          (memberParts enters .navEntry path 0 entries).flatMap Part.warnings)

def Tells (allowed : List Finding → Prop) (same : List Warning → List Warning → Prop)
    (enters : Role → Fields → Bool) (role : Role) (read : String → Value → Review α) : Prop :=
  ∀ path v, allowed (read path v).findings → same (read path v).warnings (notes enters role path v)

theorem Part.unknownWarnings_eq {path : String} {role : Role} {v : Value} {fields : Fields}
    {known : List String} (hv : v.fields? = some fields) (hknown : role.keys? = some known) :
    Part.unknownWarnings ⟨path, role, v⟩ = (Schema.unknownKeys path fields known).warnings := by
  rw [Part.unknownWarnings, Part.unknownKeys, hv, hknown, Schema.unknownKeys, Fields.sortedKeys,
    Text.filter_sortTexts]

section Comparison

variable {allowed : List Finding → Prop} {same : List Warning → List Warning → Prop}
  {enters : Role → Fields → Bool} {role : Role} {path : String} {v : Value} {fields : Fields}
  {known : List String}

theorem Part.warnings_of_fields? (hv : v.fields? = some fields) (hknown : role.keys? = some known)
    (hrole : role ≠ .sidebarEntry) :
    Part.warnings ⟨path, role, v⟩ = (Schema.unknownKeys path fields known).warnings := by
  rw [Part.warnings, unknownWarnings_eq hv hknown]
  cases role with
  | sidebarEntry => exact absurd rfl hrole
  | listOf => cases hknown
  | _ => simp [labelWarnings, collapsedWarnings]

theorem Part.warnings_of_shapeless (hv : v.fields? = none)
    (hrole : ∀ member, role ≠ .listOf member) :
    Part.warnings ⟨path, role, v⟩ = [] := by
  cases role with
  | listOf member => exact absurd rfl (hrole member)
  | _ => simp [warnings, unknownWarnings, unknownKeys, labelWarnings, collapsedWarnings, hv]

theorem Part.warnings_listOf (hrole : role ≠ .navEntry) :
    Part.warnings ⟨path, .listOf role, v⟩ = [] := by
  cases role with
  | navEntry => exact absurd rfl hrole
  | _ => rfl

theorem Comparison.notes_of_fields? (c : Comparison allowed same enters)
    (hrole : role ≠ .navEntry ∧ role ≠ .sidebarEntry) (hv : v.fields? = some fields)
    (hknown : role.keys? = some known) :
    notes enters role path v = (unknownKeys path fields known).warnings ++
      known.flatMap (fieldNotes enters role path fields) := by
  rw [Schema.notes_of_fields? hv hknown, Part.warnings_of_fields? hv hknown hrole.2,
    if_pos (c.enters_of_ne hrole.1 hrole.2)]

theorem notes_listOf_eq_nil (hv : v.items? = none) : notes enters (.listOf role) path v = [] := by
  cases v with
  | sequence => cases hv
  | scalar => exact notes_scalar _
  | mapping => cases role <;> rfl

theorem notes_eq_nil (hv : v.fields? = none) (hknown : role.keys? = some known) :
    notes enters role path v = [] := by
  have hlist : ∀ member, role ≠ .listOf member := by
    rintro member rfl
    cases hknown
  rw [notes_of_shapeless hv hlist, Part.warnings_of_shapeless hv hlist]

theorem Comparison.of_keys {read : String → Value → Review α} (c : Comparison allowed same enters)
    (hrole : role ≠ .navEntry ∧ role ≠ .sidebarEntry) (hknown : role.keys? = some known)
    (hfree : ∀ key ∈ known, role.field key = .free)
    (hread : ∀ path v, (read path v).warnings =
      v.fields?.elim [] fun fields => (unknownKeys path fields known).warnings) :
    Tells allowed same enters role read := by
  intro path v _
  have hnotes : notes enters role path v =
      v.fields?.elim [] fun fields => (unknownKeys path fields known).warnings := by
    cases hv : v.fields? with
    | none => exact notes_eq_nil hv hknown
    | some fields =>
      have hnil : known.flatMap (fieldNotes enters role path fields) = [] :=
        List.flatMap_eq_nil_iff.mpr fun key hkey => fieldNotes_of_free (hfree key hkey)
      rw [c.notes_of_fields? hrole hv hknown, hnil, List.append_nil, Option.elim_some]
  rw [hread, hnotes]
  exact c.refl _

theorem Comparison.of_nil (c : Comparison allowed same enters) {l : List Warning} (h : l = []) :
    same [] l :=
  h ▸ c.refl []

theorem Comparison.collectFrom {read : String → Value → Review (Option α)}
    (c : Comparison allowed same enters) (h : Tells allowed same enters role read) (path : String)
    (i : Nat) (items : List Value) :
    allowed (collectFrom path read i items).findings →
      same (collectFrom path read i items).warnings
        ((memberParts enters role path i items).flatMap Part.warnings) := by
  induction items generalizing i with
  | nil => exact fun _ => c.refl _
  | cons v r ih =>
    intro hfound
    simp only [Schema.collectFrom, Review.findings_bind, Review.warnings_bind, Review.findings_pure,
      Review.warnings_pure, List.append_nil, memberParts, List.flatMap_append] at hfound ⊢
    exact c.append (h _ _ (c.left hfound)) (ih (i + 1) (c.right hfound))

theorem Comparison.sequenceOf {read : String → Value → Review (Option α)}
    (c : Comparison allowed same enters) (h : Tells allowed same enters role read)
    (hrole : role ≠ .navEntry) :
    Tells allowed same enters (.listOf role) fun path v => sequenceOf path read v := by
  intro path v hfound
  simp only [Schema.sequenceOf] at hfound ⊢
  cases hv : v.items? with
  | none => exact c.of_nil (notes_listOf_eq_nil hv)
  | some items =>
    simp only [hv, Review.findings_bind, Review.findings_pure, List.append_nil] at hfound
    rw [notes_of_items? hv, Part.warnings_listOf hrole, List.nil_append]
    simpa using c.collectFrom h path 0 items hfound

theorem Comparison.optionalField {read : String → Value → Review (Option α)} {key : String}
    (c : Comparison allowed same enters)
    (h : ∀ w ∈ fields.given? key, allowed (read (fieldPath path key) w).findings →
      same (read (fieldPath path key) w).warnings
        (notes enters (role.field key) (fieldPath path key) w)) :
    allowed (optionalField path fields key read).findings →
      same (optionalField path fields key read).warnings
        (fieldNotes enters role path fields key) := by
  rw [Schema.optionalField, fieldNotes]
  cases hw : fields.given? key with
  | none => exact fun _ => c.refl _
  | some w => exact h w hw

theorem Tells.optionalField {read : String → Value → Review (Option α)} {key : String}
    (h : Tells allowed same enters (role.field key) read) (c : Comparison allowed same enters) :
    allowed (optionalField path fields key read).findings →
      same (optionalField path fields key read).warnings
        (fieldNotes enters role path fields key) :=
  c.optionalField fun w _ => h _ w

theorem Comparison.headTag (c : Comparison allowed same enters) :
    Tells allowed same enters .headTag headTag :=
  c.of_keys (by decide) rfl (by decide) fun path v => by
    rw [Schema.headTag]
    split <;> simp_all

theorem Comparison.sidebarItem (c : Comparison allowed same enters) :
    Tells allowed same enters .sidebarItem sidebarItem :=
  c.of_keys (by decide) rfl (by decide) fun path v => by
    rw [Schema.sidebarItem]
    cases v.fields? with
    | none => rfl
    | some fields =>
      simp only [Review.warnings_bind, label_warnings, List.nil_append, Option.elim_some]
      split
      · simp
      · split <;> simp

theorem Comparison.socialLink (c : Comparison allowed same enters) :
    Tells allowed same enters .socialLink socialLink :=
  c.of_keys (by decide) rfl (by decide) fun path v => by
    rw [Schema.socialLink]
    cases v.fields? <;> simp

theorem Comparison.search (c : Comparison allowed same enters) :
    Tells allowed same enters .search search :=
  c.of_keys (by decide) rfl (by decide) fun path v => by
    rw [Schema.search]
    cases v.fields? with
    | none => rfl
    | some fields =>
      simp only [Review.warnings_bind, oneOf_warnings, List.nil_append, Option.elim_some]
      split <;> simp

theorem Comparison.footer (c : Comparison allowed same enters) :
    Tells allowed same enters .footer footer :=
  c.of_keys (by decide) rfl (by decide) fun path v => by
    rw [Schema.footer]
    cases v.fields? <;> simp

theorem Comparison.stampStyles (c : Comparison allowed same enters) (stamp : LastUpdated) :
    Tells allowed same enters .formatOptions fun path v => stampStyles path stamp (some v) :=
  c.of_keys (by decide) rfl (by decide) fun path v => by
    simp only [Schema.stampStyles]
    cases v.fields? <;> simp

theorem Comparison.lastUpdated (c : Comparison allowed same enters) :
    Tells allowed same enters .lastUpdated lastUpdated := by
  intro path v
  rw [Schema.lastUpdated]
  split
  case h_1 hb =>
    obtain rfl := Value.bool?_eq_some_iff.mp hb
    exact fun _ => c.of_nil (notes_scalar _)
  case h_2 hb =>
    obtain rfl := Value.bool?_eq_some_iff.mp hb
    exact fun _ => c.of_nil (notes_scalar _)
  case h_3 hv => exact fun _ => c.of_nil (notes_eq_nil hv rfl)
  case h_4 fields _ hv =>
    intro hfound
    have hnotes : notes enters .lastUpdated path v =
        (unknownKeys path fields lastUpdatedKeys).warnings ++
          lastUpdatedKeys.flatMap (fieldNotes enters .lastUpdated path fields) :=
      c.notes_of_fields? (by decide) hv rfl
    have htext : fieldNotes enters .lastUpdated path fields "text" = [] := fieldNotes_of_free rfl
    rw [hnotes, lastUpdatedKeys, List.flatMap_cons, htext, List.nil_append, List.flatMap_singleton]
    refine c.append (c.refl _) ?_
    simp only [Review.findings_bind] at hfound
    rw [Review.warnings_bind, optionalText_warnings, List.nil_append, fieldNotes]
    revert hfound
    cases fields.given? "formatOptions" with
    | none => exact fun _ => c.refl _
    | some w => exact fun hfound => c.stampStyles _ _ w (c.right (c.right hfound))

theorem navEntry_entered (hv : v.fields? = some fields)
    (henters : Role.navEntry.enters fields = true) :
    ∃ rest, (navEntry path v).findings = (optionalField path fields "items" nav).findings ++ rest ∧
      (navEntry path v).warnings = (unknownKeys path fields navKeys).warnings ++
        (optionalField path fields "items" nav).warnings := by
  obtain ⟨kind, rfl⟩ := Value.fields?_eq_some_iff.mp hv
  have hkeyed : Value.textKeyed? (fields.map fun f => (.text f.1, f.2)) = some fields := hv
  rw [navEntry, hkeyed]
  obtain ⟨text, htext, ⟨link, hlink, hitems⟩ | ⟨hlink, below, hitems⟩⟩ :=
    Role.of_enters (.inl rfl) henters
  · refine ⟨(entryLink path link).findings, ?_, ?_⟩ <;>
      simp [label, htext, Schema.optionalField, hlink, hitems]
  · have hbelow := navBelow_eq (Fields.given?_eq_some_iff.mp hitems).1 (fieldPath path "items")
    simp only [label, htext, Schema.optionalField, hlink, hitems, hbelow, Review.findings_bind,
      Review.warnings_bind, Review.value_pure, Review.findings_pure, Review.warnings_pure,
      findings_unknownKeys, List.nil_append, Option.isSome_some]
    refine ⟨_, rfl, ?_⟩
    split
    · simp
    · split <;> simp

theorem navEntry_not_entered (hv : v.fields? = some fields)
    (henters : Role.navEntry.enters fields = false) :
    (navEntry path v).findings ≠ [] ∧
      (navEntry path v).warnings = (unknownKeys path fields navKeys).warnings := by
  obtain ⟨kind, rfl⟩ := Value.fields?_eq_some_iff.mp hv
  have hkeyed : Value.textKeyed? (fields.map fun f => (.text f.1, f.2)) = some fields := hv
  rw [navEntry, hkeyed]
  cases htext : nonBlank? (fields.get? "text") with
  | none => simp [label, htext]
  | some text =>
    have hform := (Role.of_not_enters (.inl rfl) henters).resolve_left (by simp [htext])
    cases hlink : fields.given? "link" <;> cases hitems : fields.given? "items" <;>
      simp [label, htext, hlink, hitems] at hform ⊢

theorem notes_navEntry (hv : v.fields? = some fields) :
    notes enters .navEntry path v = (unknownKeys path fields navKeys).warnings ++
      if enters .navEntry fields then fieldNotes enters .navEntry path fields "items" else [] := by
  have htext : fieldNotes enters .navEntry path fields "text" = [] := fieldNotes_of_free rfl
  have hlink : fieldNotes enters .navEntry path fields "link" = [] := fieldNotes_of_free rfl
  have hself : Part.warnings ⟨path, .navEntry, v⟩ = (unknownKeys path fields navKeys).warnings :=
    Part.warnings_of_fields? hv rfl (by decide)
  rw [notes_of_fields? hv rfl, hself]
  simp [navKeys, htext, hlink]

theorem Comparison.navEntry (c : Comparison allowed same enters) (hv : v.fields? = some fields)
    (hbelow : ∀ w, fields.get? "items" = some w → ∀ path, allowed (nav path w).findings →
      same (nav path w).warnings (notes enters (.listOf .navEntry) path w))
    (hfound : allowed (navEntry path v).findings) :
    same (navEntry path v).warnings (notes enters .navEntry path v) := by
  have henters := c.enters_of_allowed hfound fun h => (navEntry_not_entered hv h).1
  rw [notes_navEntry hv, henters]
  cases hentered : Role.navEntry.enters fields with
  | false =>
    rw [(navEntry_not_entered hv hentered).2, if_neg Bool.false_ne_true, List.append_nil]
    exact c.refl _
  | true =>
    obtain ⟨rest, hfindings, hwarnings⟩ := navEntry_entered hv hentered
    rw [hfindings] at hfound
    rw [hwarnings, if_pos rfl]
    exact c.append (c.refl _) (c.optionalField (fun w hw =>
      hbelow w (Fields.given?_eq_some_iff.mp hw).1 _) (c.left hfound))

theorem navEntry_warnings_eq_nil (hv : v.fields? = none) : (navEntry path v).warnings = [] := by
  cases v with
  | mapping kind entries =>
    have hkeyed : Value.textKeyed? entries = none := hv
    simp [navEntry, hkeyed]
  | _ => rw [navEntry] <;> simp

theorem nav_warnings_eq_nil (hv : v.items? = none) : (nav path v).warnings = [] := by
  cases v with
  | sequence => cases hv
  | _ => rw [nav] <;> simp

theorem Comparison.navEntry_nav (c : Comparison allowed same enters) (v : Value) :
    (∀ path, allowed (Schema.navEntry path v).findings →
      same (Schema.navEntry path v).warnings (notes enters .navEntry path v)) ∧
    ∀ path, allowed (nav path v).findings →
      same (nav path v).warnings (notes enters (.listOf .navEntry) path v) := by
  have hentry : ∀ {v : Value}, v.fields? = none → ∀ path,
      same (Schema.navEntry path v).warnings (notes enters .navEntry path v) := by
    intro v hv path
    rw [navEntry_warnings_eq_nil hv]
    exact c.of_nil (notes_eq_nil hv rfl)
  have hlist : ∀ {v : Value}, v.items? = none → ∀ path,
      same (nav path v).warnings (notes enters (.listOf .navEntry) path v) := by
    intro v hv path
    rw [nav_warnings_eq_nil hv]
    exact c.of_nil (notes_listOf_eq_nil hv)
  -- an entry looks at the list in its field, a list at its entries
  induction v with
  | scalar s => exact ⟨fun path _ => hentry rfl path, fun path _ => hlist rfl path⟩
  | sequence kind items ih =>
    refine ⟨fun path _ => hentry rfl path, fun path hfound => ?_⟩
    rw [nav] at hfound ⊢
    simp only [Review.findings_bind, Review.findings_pure, List.append_nil] at hfound
    have hself : Part.warnings ⟨path, .listOf .navEntry, .sequence kind items⟩ =
        repeatedLabels path items := List.append_nil _
    rw [notes_of_items? rfl, hself, Review.warnings_bind, Review.warnings_pure, List.append_nil]
    exact c.labels (fun v hv => (ih v hv).1) hfound
  | mapping kind entries ih =>
    refine ⟨fun path hfound => ?_, fun path _ => hlist rfl path⟩
    cases hf : Value.textKeyed? entries with
    | none =>
      have hv : (Value.mapping kind entries).fields? = none := hf
      exact hentry hv path
    | some fields =>
      obtain rfl := Value.textKeyed?_eq_some_iff.mp hf
      refine c.navEntry hf (fun w hw => ?_) hfound
      exact (ih (.text "items", w) (List.mem_map.mpr ⟨_, Fields.mem_of_get? hw, rfl⟩)).2

theorem sidebarGroup_entered (path : String) (hv : v.fields? = some fields)
    (henters : Role.sidebarEntry.enters fields = true) :
    ∃ rest, (sidebarGroup path v).findings =
        (collapsedMark (fieldPath path "collapsed") (fields.given? "link").isSome
          (fields.given? "collapsed")).findings ++
        ((optionalField path fields "items" groupItems).findings ++ rest) ∧
      (sidebarGroup path v).warnings = (unknownKeys path fields groupKeys).warnings ++
        ((collapsedMark (fieldPath path "collapsed") (fields.given? "link").isSome
          (fields.given? "collapsed")).warnings ++
        (optionalField path fields "items" groupItems).warnings) := by
  rw [sidebarGroup, hv]
  obtain ⟨text, htext, ⟨link, hlink, hitems⟩ | ⟨hlink, below, hitems⟩⟩ :=
    Role.of_enters (.inr rfl) henters
  · refine ⟨(entryLink path link).findings, ?_, ?_⟩ <;>
      simp [label, htext, Schema.optionalField, hlink, hitems]
  · refine ⟨[], ?_, ?_⟩ <;>
      simp [label, htext, Schema.optionalField, hlink, hitems]

theorem sidebarGroup_not_entered (path : String) (hv : v.fields? = some fields)
    (henters : Role.sidebarEntry.enters fields = false) :
    (sidebarGroup path v).findings ≠ [] ∧
      (sidebarGroup path v).warnings = (unknownKeys path fields groupKeys).warnings := by
  rw [sidebarGroup, hv]
  cases htext : nonBlank? (fields.get? "text") with
  | none => simp [label, htext]
  | some text =>
    have hform := (Role.of_not_enters (.inr rfl) henters).resolve_left (by simp [htext])
    cases hlink : fields.given? "link" <;> cases hitems : fields.given? "items" <;>
      simp [label, htext, hlink, hitems] at hform ⊢

theorem notes_sidebarEntry (hv : v.fields? = some fields) :
    notes enters .sidebarEntry path v = (unknownKeys path fields groupKeys).warnings ++
      (idleMark (fieldPath path "collapsed") (fields.given? "link").isSome
        (fields.given? "collapsed") ++
      if enters .sidebarEntry fields then fieldNotes enters .sidebarEntry path fields "items"
      else []) := by
  have htext : fieldNotes enters .sidebarEntry path fields "text" = [] := fieldNotes_of_free rfl
  have hlink : fieldNotes enters .sidebarEntry path fields "link" = [] := fieldNotes_of_free rfl
  have hmark : fieldNotes enters .sidebarEntry path fields "collapsed" = [] :=
    fieldNotes_of_free rfl
  have hself : Part.warnings ⟨path, .sidebarEntry, v⟩ =
      (unknownKeys path fields groupKeys).warnings ++ idleMark (fieldPath path "collapsed")
        (fields.given? "link").isSome (fields.given? "collapsed") := by
    rw [Part.warnings, Part.unknownWarnings_eq hv rfl]
    simp [Part.labelWarnings, Part.collapsedWarnings, hv]
  rw [notes_of_fields? hv rfl, hself]
  simp [groupKeys, htext, hlink, hmark]

theorem Comparison.groupItems (c : Comparison allowed same enters) :
    Tells allowed same enters (.listOf .sidebarItem) groupItems := by
  intro path v hfound
  rw [Schema.groupItems] at hfound ⊢
  cases hv : v.items? with
  | none => exact c.of_nil (notes_listOf_eq_nil hv)
  | some items =>
    have hself : Part.warnings ⟨path, .listOf .sidebarItem, v⟩ = [] :=
      Part.warnings_listOf (by decide)
    rw [notes_of_items? hv, hself, List.nil_append]
    cases items with
    | nil => exact c.refl _
    | cons first others =>
      simp only [hv, Review.findings_bind, Review.findings_pure, List.append_nil] at hfound
      simpa using c.collectFrom c.sidebarItem path 0 (first :: others) hfound

theorem Comparison.sidebarGroup (c : Comparison allowed same enters) :
    Tells allowed same enters .sidebarEntry sidebarGroup := by
  intro path v hfound
  cases hv : v.fields? with
  | none =>
    rw [Schema.sidebarGroup, hv]
    exact c.of_nil (notes_eq_nil hv rfl)
  | some fields =>
    have henters := c.enters_of_allowed hfound fun h => (sidebarGroup_not_entered path hv h).1
    rw [notes_sidebarEntry hv, henters]
    cases hentered : Role.sidebarEntry.enters fields with
    | false =>
      obtain ⟨hne, hwarnings⟩ := sidebarGroup_not_entered path hv hentered
      rw [hwarnings, if_neg Bool.false_ne_true, List.append_nil]
      simpa using c.append (c.refl _) (c.unread hfound hne)
    | true =>
      obtain ⟨rest, hfindings, hwarnings⟩ := sidebarGroup_entered path hv hentered
      rw [hfindings] at hfound
      rw [hwarnings, if_pos rfl]
      refine c.append (c.refl _) (c.append (c.mark (c.left hfound)) ?_)
      exact c.groupItems.optionalField c (c.left (c.right hfound))

theorem Comparison.nav (c : Comparison allowed same enters) :
    Tells allowed same enters (.listOf .navEntry) nav :=
  fun path v => (c.navEntry_nav v).2 path

theorem Comparison.theme (c : Comparison allowed same enters)
    (hfound : allowed (theme path fields).findings) :
    same (theme path fields).warnings ((unknownKeys path fields themeKeys).warnings ++
      themeKeys.flatMap (fieldNotes enters .theme path fields)) := by
  have hlogo : fieldNotes enters .theme path fields "logo" = [] := fieldNotes_of_free rfl
  simp only [themeKeys, List.flatMap_cons, List.flatMap_nil, hlogo, List.nil_append]
  simp only [Schema.theme, Review.findings_bind] at hfound
  have h1 := c.right (c.right hfound)
  have h2 := c.right h1
  have h3 := c.right h2
  have h4 := c.right h3
  have h5 := c.right h4
  have h6 := c.right h5
  refine c.append (c.refl _) ?_
  simp only [Review.warnings_bind, logo_warnings, List.nil_append]
  refine c.append (c.nav.optionalField c (c.left h1)) ?_
  refine c.append ((c.sequenceOf c.sidebarGroup (by decide)).optionalField c (c.left h2)) ?_
  refine c.append ((c.sequenceOf c.socialLink (by decide)).optionalField c (c.left h3)) ?_
  refine c.append (c.search.optionalField c (c.left h4)) ?_
  refine c.append (c.footer.optionalField c (c.left h5)) ?_
  exact c.append (c.lastUpdated.optionalField c (c.left h6)) (c.refl _)

theorem Comparison.themeSection (c : Comparison allowed same enters) :
    Tells allowed same enters .theme themeSection := by
  intro path v hfound
  rw [Schema.themeSection] at hfound ⊢
  cases hv : v.fields? with
  | none => exact c.of_nil (notes_eq_nil hv rfl)
  | some fields =>
    have hnotes : notes enters .theme path v = (unknownKeys path fields themeKeys).warnings ++
        themeKeys.flatMap (fieldNotes enters .theme path fields) :=
      c.notes_of_fields? (by decide) hv rfl
    simp only [hv, Review.findings_bind] at hfound
    rw [hnotes, Review.warnings_bind, Review.warnings_pure, List.append_nil]
    exact c.theme (c.left hfound)

theorem Comparison.site (c : Comparison allowed same enters)
    (hfound : allowed (site fields).findings) :
    same (site fields).warnings (notes enters .site "" (.record fields)) := by
  have hnotes : notes enters .site "" (.record fields) =
    (unknownKeys "" fields siteKeys).warnings ++
      siteKeys.flatMap (fieldNotes enters .site "" fields) :=
    c.notes_of_fields? (by decide) (Value.fields?_record fields) rfl
  have htitle : fieldNotes enters .site "" fields "title" = [] := fieldNotes_of_free rfl
  have hdescription : fieldNotes enters .site "" fields "description" = [] := fieldNotes_of_free rfl
  have hlang : fieldNotes enters .site "" fields "lang" = [] := fieldNotes_of_free rfl
  rw [hnotes]
  simp only [siteKeys, List.flatMap_cons, List.flatMap_nil, htitle, hdescription, hlang,
    List.nil_append]
  simp only [Schema.site, Review.findings_bind] at hfound
  have h1 := c.right (c.right (c.right (c.right hfound)))
  refine c.append (c.refl _) ?_
  simp only [Review.warnings_bind, requiredText_warnings, optionalText_warnings, List.nil_append]
  refine c.append ((c.sequenceOf c.headTag (by decide)).optionalField c (c.left h1)) ?_
  exact c.append (c.themeSection.optionalField c (c.left (c.right h1))) (c.refl _)

end Comparison

end DocSite.Schema

namespace DocSite

def Warning.isUnknownField (w : Warning) : Bool := w.message == "unknown field ignored"

namespace Schema

def SameUnknown (a b : List Warning) : Prop :=
  a.filter Warning.isUnknownField = b.filter Warning.isUnknownField

section UnknownFields

variable {allowed : List Finding → Prop} {enters : Role → Fields → Bool}

theorem isUnknownField_label (path label place : String) : Warning.isUnknownField
    ⟨path, "nav label " ++ Text.quote label ++ " already used by " ++ place⟩ = false := by
  rw [Warning.isUnknownField, beq_eq_false_iff_ne]
  intro h
  have hchars := congrArg String.toList h
  simp only [String.toList_append] at hchars
  cases hchars

theorem filter_labelUse (path : String) (i : Nat) (uses : List (String × Nat)) (label : String) :
    (labelUse path i uses label).warnings.filter Warning.isUnknownField = [] := by
  rw [labelUse]
  split
  · exact List.filter_cons_of_neg (by rw [isUnknownField_label]; exact Bool.false_ne_true)
  · rfl

theorem filter_repeatedLabels (path : String) (entries : List Value) :
    (repeatedLabels path entries).filter Warning.isUnknownField = [] := by
  rw [List.filter_eq_nil_iff]
  intro w hw
  obtain ⟨i, -, hi⟩ := List.mem_filterMap.mp hw
  rw [labelWarning?] at hi
  split at hi
  · dsimp only at hi
    split at hi
    · rw [← Option.some.inj hi, isUnknownField_label]
      exact Bool.false_ne_true
    · cases hi
  · cases hi

theorem filter_idleMark (path : String) (isLink : Bool) (mark : Option Value) :
    (idleMark path isLink mark).filter Warning.isUnknownField = [] := by
  rw [idleMark]
  split <;> rfl

theorem filter_collapsedMark (path : String) (isLink : Bool) (mark : Option Value) :
    (collapsedMark path isLink mark).warnings.filter Warning.isUnknownField = [] := by
  rw [collapsedMark.eq_def]
  split
  · rfl
  · split
    · rfl
    · split <;> rfl

theorem sameUnknown_navFrom {path : String} {i : Nat} {uses : List (String × Nat)}
    {entries : List Value} (hleft : ∀ {a b}, allowed (a ++ b) → allowed a)
    (hright : ∀ {a b}, allowed (a ++ b) → allowed b)
    (h : ∀ v ∈ entries, ∀ path, allowed (navEntry path v).findings →
      SameUnknown (navEntry path v).warnings (notes enters .navEntry path v))
    (hfound : allowed (navFrom path i uses entries).findings) :
    SameUnknown (navFrom path i uses entries).warnings
      ((memberParts enters .navEntry path i entries).flatMap Part.warnings) := by
  induction entries generalizing i uses with
  | nil => rfl
  | cons v r ih =>
    rw [List.forall_mem_cons] at h
    rw [navFrom, Review.findings_bind] at hfound
    have hself := h.1 _ (hleft hfound)
    have hrest := hright hfound
    rw [SameUnknown, navFrom, Review.warnings_bind, memberParts, List.flatMap_append,
      List.filter_append, List.filter_append, ← notes, hself]
    congr 1
    cases hvalue : (navEntry (itemPath path i) v).value with
    | none =>
      rw [hvalue] at hrest
      exact ih h.2 hrest
    | some item =>
      simp only [hvalue, Review.findings_bind, findings_labelUse, List.nil_append,
        Review.findings_pure, List.append_nil] at hrest
      simp only [Review.warnings_bind, List.filter_append, filter_labelUse, Review.warnings_pure,
        List.nil_append, List.append_nil]
      exact ih h.2 hrest

theorem Comparison.of_sameUnknown (hleft : ∀ {a b}, allowed (a ++ b) → allowed a)
    (hright : ∀ {a b}, allowed (a ++ b) → allowed b)
    (hne : ∀ {role fields}, role ≠ .navEntry → role ≠ .sidebarEntry → enters role fields = true)
    (hallowed : ∀ {role : Role} {fields found}, allowed found →
      (role.enters fields = false → found ≠ []) → enters role fields = role.enters fields) :
    Comparison allowed SameUnknown enters where
  left := hleft
  right := hright
  refl _ := rfl
  append hab hcd := by rw [SameUnknown, List.filter_append, List.filter_append, hab, hcd]
  enters_of_ne := hne
  enters_of_allowed := hallowed
  mark _ := by rw [SameUnknown, filter_collapsedMark, filter_idleMark]
  unread _ _ := by rw [SameUnknown, filter_idleMark, List.filter_nil]
  labels h hfound := by
    rw [SameUnknown, List.filter_append, filter_repeatedLabels, List.nil_append]
    exact sameUnknown_navFrom hleft hright h hfound

theorem Part.pairwise_unknownKeys (part : Part) :
    part.unknownKeys.Pairwise fun a b => ¬Text.before b a := by
  rw [unknownKeys]
  split
  · exact Text.pairwise_sortTexts _
  · exact .nil

theorem Part.filter_warnings (part : Part) :
    part.warnings.filter Warning.isUnknownField = part.unknownWarnings := by
  have hunknown : part.unknownWarnings.filter Warning.isUnknownField = part.unknownWarnings := by
    rw [List.filter_eq_self]
    intro w hw
    obtain ⟨key, -, rfl⟩ := List.mem_map.mp hw
    rfl
  have hlabels : part.labelWarnings.filter Warning.isUnknownField = [] := by
    rw [labelWarnings]
    split
    · exact filter_repeatedLabels _ _
    · rfl
  have hmark : part.collapsedWarnings.filter Warning.isUnknownField = [] := by
    rw [collapsedWarnings]
    split
    · exact filter_idleMark _ _ _
    · rfl
  rw [warnings, List.filter_append, List.filter_append, hunknown, hlabels, hmark, List.append_nil,
    List.append_nil]

theorem filter_notes (role : Role) (path : String) (v : Value) :
    (notes enters role path v).filter Warning.isUnknownField =
      (partsIf enters role path v).flatMap Part.unknownWarnings := by
  rw [notes, List.filter_flatMap]
  simp only [Part.filter_warnings]

theorem filter_site_warnings (declaration : Fields) :
    (site declaration).warnings.filter Warning.isUnknownField =
      (reachedParts .site "" (.record declaration)).flatMap Part.unknownWarnings := by
  have c : Comparison (fun _ => True) SameUnknown Role.enters :=
    .of_sameUnknown (fun _ => trivial) (fun _ => trivial) Role.enters_of_ne fun _ _ => rfl
  rw [c.site trivial, filter_notes, reachedParts]

theorem filter_site_warnings_of_findings {declaration : Fields}
    (h : (site declaration).findings = []) :
    (site declaration).warnings.filter Warning.isUnknownField =
      (parts .site "" (.record declaration)).flatMap Part.unknownWarnings := by
  have c : Comparison (fun found => found = []) SameUnknown fun _ _ => true :=
    .of_sameUnknown (fun h => (List.append_eq_nil_iff.mp h).1)
      (fun h => (List.append_eq_nil_iff.mp h).2) (fun _ _ => rfl) Role.enters_of_findings
  rw [c.site h, filter_notes, parts]

end UnknownFields

section Accepted

variable {path : String} {labels : List (Option String)} {i : Nat} {uses : List (String × Nat)}

theorem labelOf?_of_declaredBy {v : Value} {item : NavItem} (h : NavItem.DeclaredBy v item) :
    labelOf? v = some item.text := by
  cases h with
  | link hf htext => simp [labelOf?, hf, nonBlank?_eq_some_iff.mpr htext]
  | menu hf htext => simp [labelOf?, hf, nonBlank?_eq_some_iff.mpr htext]

def FirstUses (labels : List (Option String)) (i : Nat) (uses : List (String × Nat)) : Prop :=
  ∀ label, uses.lookup label =
    if labels.idxOf (some label) < i then some (labels.idxOf (some label)) else none

theorem FirstUses.concat {text : String} (h : FirstUses labels i uses)
    (hi : labels[i]? = some (some text)) : FirstUses labels (i + 1) (uses ++ [(text, i)]) := by
  intro label
  obtain ⟨hlt, htext⟩ := List.getElem?_eq_some_iff.mp hi
  rw [List.lookup_append, h label]
  by_cases hbefore : labels.idxOf (some label) < i
  · rw [if_pos hbefore, if_pos (Nat.lt_succ_of_lt hbefore), Option.some_or]
  · rw [if_neg hbefore, Option.none_or, Text.lookup_cons]
    by_cases hlabel : label = text
    · subst hlabel
      have hlast : some label ∈ labels.take (i + 1) := by simp [List.take_add_one, hi]
      have hle := (List.mem_take_iff_idxOf_lt (List.mem_of_getElem? hi)).mp hlast
      have heq : labels.idxOf (some label) = i := by omega
      rw [if_pos rfl, if_pos hle, heq]
    · have hle : ¬labels.idxOf (some label) < i + 1 := by
        intro hle
        have heq : labels.idxOf (some label) = i := by omega
        have hmem := List.idxOf_lt_length_iff.mp (heq ▸ hlt)
        have hget := List.getElem?_idxOf hmem
        rw [heq, hi] at hget
        exact hlabel (Option.some.inj (Option.some.inj hget)).symm
      rw [if_neg hlabel, if_neg hle]
      rfl

theorem labelUse_warnings {text : String} (h : FirstUses labels i uses)
    (hi : labels[i]? = some (some text)) :
    (labelUse path i uses text).warnings = (labelWarning? path labels i).toList := by
  rw [labelUse, labelWarning?, h text, hi]
  by_cases hfirst : labels.idxOf (some text) < i
  · simp [hfirst, Review.warn]
  · simp [hfirst]

theorem filterMap_cons_toList (f : α → Option β) (a : α) (l : List α) :
    (a :: l).filterMap f = (f a).toList ++ l.filterMap f := by
  rw [List.filterMap_cons]
  cases f a <;> rfl

theorem collapsedMark_warnings {isLink : Bool} {mark : Option Value}
    (h : (collapsedMark path isLink mark).findings = []) :
    (collapsedMark path isLink mark).warnings = idleMark path isLink mark := by
  cases mark with
  | none => cases isLink <;> rfl
  | some v =>
    cases hb : v.bool? with
    | none => simp [collapsedMark, hb] at h
    | some b => cases isLink <;> simp [collapsedMark, hb, idleMark, Review.warn]

theorem perm_navFrom {entries : List Value}
    (h : ∀ v ∈ entries, ∀ path, (navEntry path v).findings = [] →
      (navEntry path v).warnings.Perm (notes (fun _ _ => true) .navEntry path v))
    (hlabels : labels.drop i = entries.map labelOf?) (huses : FirstUses labels i uses)
    (hfound : (navFrom path i uses entries).findings = []) :
    (navFrom path i uses entries).warnings.Perm
      ((List.range' i entries.length).filterMap (labelWarning? path labels) ++
        (memberParts (fun _ _ => true) .navEntry path i entries).flatMap Part.warnings) := by
  induction entries generalizing i uses with
  | nil => exact .nil
  | cons v r ih =>
    rw [List.forall_mem_cons] at h
    rw [navFrom, Review.findings_bind, List.append_eq_nil_iff] at hfound
    obtain ⟨item, hvalue, hitem⟩ := ((navEntry_nav_yields v).1 _ _).mp ⟨hfound.1, rfl⟩
    have hi : labels[i]? = some (some item.text) := by
      rw [← labelOf?_of_declaredBy hitem, ← List.head?_drop, hlabels]
      rfl
    have hdrop : labels.drop (i + 1) = r.map labelOf? := by
      rw [← List.tail_drop, hlabels]
      rfl
    have hrest : (navFrom path (i + 1) (uses ++ [(item.text, i)]) r).findings = [] := by
      simpa [hvalue] using hfound.2
    rw [navFrom, Review.warnings_bind, hvalue]
    simp only [Review.warnings_bind, Review.warnings_pure, List.append_nil,
      labelUse_warnings huses hi]
    rw [List.length_cons, List.range'_succ, filterMap_cons_toList, memberParts, List.flatMap_append,
      List.append_assoc]
    refine List.perm_append_comm_assoc _ _ _ |>.trans (.append_left _ ?_)
    refine ((h.1 _ hfound.1).append (ih h.2 hdrop (huses.concat hi) hrest)).trans ?_
    exact List.perm_append_comm_assoc _ _ _

theorem perm_site_warnings {declaration : Fields} (h : (site declaration).findings = []) :
    (site declaration).warnings.Perm
      ((parts .site "" (.record declaration)).flatMap Part.warnings) := by
  have c : Comparison (fun found => found = []) List.Perm fun _ _ => true := {
    left := fun h => (List.append_eq_nil_iff.mp h).1
    right := fun h => (List.append_eq_nil_iff.mp h).2
    refl := .refl
    append := .append
    enters_of_ne := fun _ _ => rfl
    enters_of_allowed := Role.enters_of_findings
    mark := fun hnil => .of_eq (collapsedMark_warnings hnil)
    unread := fun hnil hne => absurd hnil hne
    labels := fun {path entries} hentries hnil => by
      have hperm := perm_navFrom hentries (rfl : (entries.map labelOf?).drop 0 = _)
        (fun label => by simp) hnil
      rwa [← List.range_eq_range'] at hperm }
  exact c.site h

end Accepted

end Schema

open Schema in
/-- An accepted declaration is warned about exactly what there is to note about its parts: in each
mapping of the schema the keys that the schema does not name, in each navigation list the labels
that stand before in the same list, and at each sidebar link the mark as collapsed or not. The keys
of one mapping come in ascending order. -/
theorem build_warnings {declaration : Fields} {r : Report} (h : build declaration = .ok r) :
    r.warnings.Perm ((parts .site "" (.record declaration)).flatMap Part.warnings) ∧
    ∀ part ∈ parts .site "" (.record declaration), part.unknownWarnings.Sublist r.warnings ∧
      part.unknownKeys.Pairwise fun a b => ¬Text.before b a := by
  obtain ⟨hdeclared, -, hwarnings⟩ := build_eq_ok_iff.mp h
  have hnil := (site_yields.mpr hdeclared).findings
  rw [hwarnings]
  refine ⟨perm_site_warnings hnil, fun part hpart => ⟨?_, part.pairwise_unknownKeys⟩⟩
  have hsub : part.unknownWarnings.Sublist
      ((parts .site "" (.record declaration)).flatMap Part.unknownWarnings) :=
    List.sublist_flatten_of_mem (List.mem_map_of_mem hpart)
  rw [← filter_site_warnings_of_findings hnil] at hsub
  exact hsub.trans List.filter_sublist

theorem build_warnings_menu :
    ∃ r, build [("title", .text "Docs"), ("description", .text "All of it"),
        ("themeConfig", .record [
          ("nav", .list [.record [("text", .text "Start"), ("zeta", .null), ("alpha", .null),
            ("items", .list [.record [("text", .text "Start"), ("link", .text "/a")],
              .record [("text", .text "Next"), ("link", .text "/b")],
              .record [("text", .text " Start "), ("link", .text "/c")]])]]),
          ("sidebar", .list [.record [("text", .text "Guide"), ("link", .text "/guide"),
            ("collapsed", .bool true)]])])] = .ok r ∧
      r.warnings.Perm [
        ⟨"themeConfig.nav[0].alpha", "unknown field ignored"⟩,
        ⟨"themeConfig.nav[0].zeta", "unknown field ignored"⟩,
        ⟨"themeConfig.nav[0].items[2]",
          "nav label \"Start\" already used by themeConfig.nav[0].items[0]"⟩,
        ⟨"themeConfig.sidebar[0].collapsed", "collapsed has no effect on a link entry"⟩] := by
  refine ⟨?r, ?built, ?perm⟩
  case perm => exact (build_warnings ?built).1
  case built => rfl

end DocSite
