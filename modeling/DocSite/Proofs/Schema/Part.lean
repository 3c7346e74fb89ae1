import DocSite.Proofs.Schema.Declared

/-!
The parts of a declaration. A table says which keys a mapping of the schema may have, what stands
under each of them and what the members of a list are. Followed through a declaration, it gives the
parts of the declaration with their paths, and what there is to note about a declaration can be said
part by part.
-/

namespace DocSite.Schema

/-- What a value is to the schema. -/
inductive Role
  | site
  | theme
  | headTag
  | navEntry
  | sidebarEntry
  | sidebarItem
  | socialLink
  | search
  | footer
  | lastUpdated
  | formatOptions
  | listOf (member : Role)
  | free
deriving DecidableEq, Repr

namespace Role

def keys? : Role → Option (List String)
  | .site => some siteKeys
  | .theme => some themeKeys
  | .headTag => some headKeys
  | .navEntry => some navKeys
  | .sidebarEntry => some groupKeys
  | .sidebarItem => some itemKeys
  | .socialLink => some socialKeys
  | .search => some searchKeys
  | .footer => some footerKeys
  | .lastUpdated => some lastUpdatedKeys
  | .formatOptions => some formatKeys
  | .listOf _ => none
  | .free => none

def field : Role → String → Role
  | .site, "head" => .listOf .headTag
  | .site, "themeConfig" => .theme
  | .theme, "nav" => .listOf .navEntry
  | .theme, "sidebar" => .listOf .sidebarEntry
  | .theme, "socialLinks" => .listOf .socialLink
  | .theme, "search" => .search
  | .theme, "footer" => .footer
  | .theme, "lastUpdated" => .lastUpdated
  | .navEntry, "items" => .listOf .navEntry
  | .sidebarEntry, "items" => .listOf .sidebarItem
  | .lastUpdated, "formatOptions" => .formatOptions
  | _, _ => .free

def member : Role → Role
  | .listOf role => role
  | _ => .free

/-- Whether reading goes on below a mapping: an entry is looked into if it has a label, and a link
or entries of its own but not both. -/
def enters (role : Role) (fields : Fields) : Bool :=
  match role with
  | .navEntry | .sidebarEntry => (nonBlank? (fields.get? "text")).isSome &&
      ((fields.given? "link").isSome != (fields.given? "items").isSome)
  | _ => true

end Role

structure Part where
  path : String
  role : Role
  value : Value

mutual

/-- The parts of a value, itself the first; a mapping is looked into where `enters` allows it. -/
def partsIf (enters : Role → Fields → Bool) (role : Role) (path : String) : Value → List Part
  | .scalar s => [⟨path, role, .scalar s⟩]
  | .sequence kind items =>
    ⟨path, role, .sequence kind items⟩ ::
      match role with
      | .listOf member => memberParts enters member path 0 items
      | _ => []
  | .mapping kind entries =>
    ⟨path, role, .mapping kind entries⟩ ::
      match role.keys?, Value.textKeyed? entries with
      | some known, some fields =>
        if enters role fields then known.flatMap fun key => fieldParts enters role path key entries
        else []
      | _, _ => []

def memberParts (enters : Role → Fields → Bool) (role : Role) (path : String) :
    Nat → List Value → List Part
  | _, [] => []
  | i, v :: r => partsIf enters role (itemPath path i) v ++ memberParts enters role path (i + 1) r

def fieldParts (enters : Role → Fields → Bool) (role : Role) (path key : String) :
    List (Scalar × Value) → List Part
  | [] => []
  | (k, v) :: r =>
    if k = .text key then partsIf enters (role.field key) (fieldPath path key) v
    else fieldParts enters role path key r

end

def parts (role : Role) (path : String) (v : Value) : List Part :=
  partsIf (fun _ _ => true) role path v

/-- The parts of a value that reading it gets to. -/
def reachedParts (role : Role) (path : String) (v : Value) : List Part :=
  partsIf Role.enters role path v

def labelOf? (v : Value) : Option String :=
  (v.fields?.bind fun fields => nonBlank? (fields.get? "text")).map Text.trim

/-- What is noted about the label at an index of a list: if it stands before that index as well,
where it stands first. -/
def labelWarning? (path : String) (labels : List (Option String)) (i : Nat) : Option Warning :=
  match labels[i]? with
  | some (some label) =>
    let first := labels.idxOf (some label)
    if first < i then
      some ⟨itemPath path i,
        "nav label " ++ Text.quote label ++ " already used by " ++ itemPath path first⟩
    else none
  | _ => none

def repeatedLabels (path : String) (entries : List Value) : List Warning :=
  (List.range entries.length).filterMap (labelWarning? path (entries.map labelOf?))

def idleMark (path : String) (isLink : Bool) (mark : Option Value) : List Warning :=
  if isLink && mark.isSome then [⟨path, "collapsed has no effect on a link entry"⟩] else []

namespace Part

def unknownKeys (part : Part) : List String :=
  match part.role.keys?, part.value.fields? with
  | some known, some fields =>
    Text.sortTexts ((fields.map (·.1)).filter fun key => !known.contains key)
  | _, _ => []

def unknownWarnings (part : Part) : List Warning :=
  part.unknownKeys.map fun key => ⟨fieldPath part.path key, "unknown field ignored"⟩

def labelWarnings (part : Part) : List Warning :=
  match part.role, part.value.items? with
  | .listOf .navEntry, some entries => repeatedLabels part.path entries
  | _, _ => []

def collapsedWarnings (part : Part) : List Warning :=
  match part.role, part.value.fields? with
  | .sidebarEntry, some fields =>
    idleMark (fieldPath part.path "collapsed") (fields.given? "link").isSome
      (fields.given? "collapsed")
  | _, _ => []

def warnings (part : Part) : List Warning :=
  part.unknownWarnings ++ part.labelWarnings ++ part.collapsedWarnings

end Part

def notes (enters : Role → Fields → Bool) (role : Role) (path : String) (v : Value) :
    List Warning :=
  (partsIf enters role path v).flatMap Part.warnings

def fieldNotes (enters : Role → Fields → Bool) (role : Role) (path : String) (fields : Fields)
    (key : String) : List Warning :=
  (fields.given? key).elim [] (notes enters (role.field key) (fieldPath path key))

theorem Role.of_enters {role : Role} {fields : Fields}
    (hrole : role = .navEntry ∨ role = .sidebarEntry)
    (h : role.enters fields = true) : ∃ text, nonBlank? (fields.get? "text") = some text ∧
      ((∃ link, fields.given? "link" = some link ∧ fields.given? "items" = none) ∨
        fields.given? "link" = none ∧ ∃ below, fields.given? "items" = some below) := by
  have hform : (nonBlank? (fields.get? "text")).isSome = true ∧
      ((fields.given? "link").isSome != (fields.given? "items").isSome) = true := by
    rcases hrole with rfl | rfl <;> exact Bool.and_eq_true_iff.mp h
  obtain ⟨text, htext⟩ := Option.isSome_iff_exists.mp hform.1
  refine ⟨text, htext, ?_⟩
  cases hlink : fields.given? "link" <;> cases hitems : fields.given? "items" <;>
    simp [hlink, hitems] at hform ⊢

theorem Role.of_not_enters {role : Role} {fields : Fields}
    (hrole : role = .navEntry ∨ role = .sidebarEntry) (h : role.enters fields = false) :
    nonBlank? (fields.get? "text") = none ∨
      (fields.given? "link").isSome = (fields.given? "items").isSome := by
  have hform : ((nonBlank? (fields.get? "text")).isSome &&
      ((fields.given? "link").isSome != (fields.given? "items").isSome)) = false := by
    rcases hrole with rfl | rfl <;> exact h
  cases htext : nonBlank? (fields.get? "text") with
  | none => exact .inl rfl
  | some text => exact .inr (by simpa [htext] using hform)

theorem Role.enters_of_ne {role : Role} {fields : Fields} (hnav : role ≠ .navEntry)
    (hsidebar : role ≠ .sidebarEntry) : role.enters fields = true := by
  cases role with
  | navEntry => exact absurd rfl hnav
  | sidebarEntry => exact absurd rfl hsidebar
  | _ => rfl

theorem Role.enters_of_findings {role : Role} {fields : Fields} {found : List Finding}
    (hnil : found = []) (hne : role.enters fields = false → found ≠ []) :
    true = role.enters fields := by
  cases h : role.enters fields with
  | true => rfl
  | false => exact absurd hnil (hne h)

section Parts

variable {enters : Role → Fields → Bool} {role : Role} {path : String} {v : Value} {fields : Fields}

theorem fieldParts_eq (key : String) :
    fieldParts enters role path key (fields.map fun f => (.text f.1, f.2)) =
      (fields.get? key).elim [] (partsIf enters (role.field key) (fieldPath path key)) := by
  induction fields with
  | nil => rfl
  | cons f r ih =>
    rw [List.map_cons, fieldParts, Fields.get?, Text.lookup_cons]
    by_cases hk : key = f.1
    · rw [if_pos hk, if_pos (by rw [hk])]
      rfl
    · rw [if_neg hk, if_neg (by simpa using Ne.symm hk), ih]
      rfl

@[simp] theorem Part.warnings_scalar (s : Scalar) :
    Part.warnings ⟨path, role, .scalar s⟩ = [] := by
  cases role with
  | listOf member => cases member <;> rfl
  | _ => rfl

@[simp] theorem Part.warnings_free : Part.warnings ⟨path, .free, v⟩ = [] := rfl

@[simp] theorem notes_scalar (s : Scalar) : notes enters role path (.scalar s) = [] := by
  simp [notes, partsIf]

@[simp] theorem notes_free : notes enters .free path v = [] := by
  cases v <;> simp [notes, partsIf, Role.keys?]

theorem notes_of_items? {items : List Value} (hv : v.items? = some items) :
    notes enters (.listOf role) path v = Part.warnings ⟨path, .listOf role, v⟩ ++
      (memberParts enters role path 0 items).flatMap Part.warnings := by
  obtain ⟨kind, rfl⟩ := Value.items?_eq_some_iff.mp hv
  rfl

theorem notes_of_shapeless (hfields : v.fields? = none) (hrole : ∀ member, role ≠ .listOf member) :
    notes enters role path v = Part.warnings ⟨path, role, v⟩ := by
  cases v with
  | scalar s => simp
  | sequence kind items =>
    cases role with
    | listOf member => exact absurd rfl (hrole member)
    | _ => simp [notes, partsIf]
  | mapping kind entries =>
    have hkeyed : Value.textKeyed? entries = none := hfields
    simp [notes, partsIf, hkeyed]

theorem fieldNotes_of_free {key : String} (h : role.field key = .free) :
    fieldNotes enters role path fields key = [] := by
  rw [fieldNotes, h]
  cases fields.given? key with
  | none => rfl
  | some w => exact notes_free

theorem flatMap_fieldParts (key : String) :
    (fieldParts enters role path key (fields.map fun f => (.text f.1, f.2))).flatMap Part.warnings =
      fieldNotes enters role path fields key := by
  rw [fieldParts_eq, fieldNotes]
  obtain h | ⟨h, hnull⟩ := fields.given?_cases key
  · rw [h]
    cases fields.get? key <;> rfl
  · rw [h, hnull]
    exact @notes_scalar enters _ _ _

theorem notes_of_fields? {known : List String} (hv : v.fields? = some fields)
    (hknown : role.keys? = some known) :
    notes enters role path v = Part.warnings ⟨path, role, v⟩ ++
      if enters role fields then known.flatMap (fieldNotes enters role path fields) else [] := by
  obtain ⟨kind, rfl⟩ := Value.fields?_eq_some_iff.mp hv
  have hkeyed : Value.textKeyed? (fields.map fun f => (.text f.1, f.2)) = some fields := hv
  simp only [notes, partsIf, hknown, hkeyed, List.flatMap_cons]
  split
  · simp only [List.flatMap_assoc, flatMap_fieldParts]
  · rfl

end Parts

end DocSite.Schema
