import DocSite.Proofs.Schema.Simulation
import DocSite.Proofs.Schema.Warnings

namespace DocSite

namespace Schema

def Role.under (role : Role) : Scalar → Role
  | .text key => role.field key
  | _ => .free

section Edited

variable (idle : List String → String → Value → Prop)

mutual

/-- The values are the same but for idle fields in mappings of the schema. A mapping may be declared
for other values then. -/
inductive Edited : Role → Value → Value → Prop
  | refl (role : Role) (v : Value) : Edited role v v
  | sequence {role : Role} {kind kind' : SequenceKind} {l m : List Value} :
    EditedMembers role l m → Edited (.listOf role) (.sequence kind l) (.sequence kind' m)
  | mapping {role : Role} {known : List String} {kind kind' : MappingKind}
    {l m : List (Scalar × Value)} : role.keys? = some known → EditedEntries role known l m →
    Edited role (.mapping kind l) (.mapping kind' m)

inductive EditedMembers : Role → List Value → List Value → Prop
  | nil {role : Role} : EditedMembers role [] []
  | cons {role : Role} {v w : Value} {l m : List Value} :
    Edited role v w → EditedMembers role l m → EditedMembers role (v :: l) (w :: m)

inductive EditedEntries :
    Role → List String → List (Scalar × Value) → List (Scalar × Value) → Prop
  | nil {role : Role} {known : List String} : EditedEntries role known [] []
  | both {role : Role} {known : List String} {key : Scalar} {v w : Value}
    {l m : List (Scalar × Value)} : Edited (role.under key) v w → EditedEntries role known l m →
    EditedEntries role known ((key, v) :: l) ((key, w) :: m)
  | left {role : Role} {known : List String} {key : String} {v : Value}
    {l m : List (Scalar × Value)} : idle known key v → .text key ∉ l.map (·.1) →
    EditedEntries role known l m → EditedEntries role known ((.text key, v) :: l) m
  | right {role : Role} {known : List String} {key : String} {w : Value}
    {l m : List (Scalar × Value)} : idle known key w → .text key ∉ m.map (·.1) →
    EditedEntries role known l m → EditedEntries role known l ((.text key, w) :: m)

end

end Edited

/-- Fields that mean nothing: the schema names them and they are null, or it does not name them and
the warning about that is not seen. -/
structure Ignorable (seen : Warning → Bool) (idle : List String → String → Value → Prop) :
    Prop where
  null : ∀ {known key v}, idle known key v → key ∈ known → v = .null
  unseen : ∀ {known key v}, idle known key v → key ∉ known →
    ∀ path, seen ⟨fieldPath path key, "unknown field ignored"⟩ = false

section Simulation

variable {seen : Warning → Bool} {idle : List String → String → Value → Prop} {role : Role}
  {known : List String}

theorem EditedMembers.forall₂ {l m : List Value} (h : EditedMembers idle role l m) :
    List.Forall₂ (Edited idle role) l m := by
  induction l generalizing m with
  | nil =>
    cases h
    exact .nil
  | cons v r ih =>
    cases h with
    | cons hvw h => exact .cons hvw (ih h)

theorem Edited.isNull {v w : Value} (h : Edited idle role v w) : v.isNull = w.isNull := by
  cases h <;> rfl

theorem Ignorable.given?_cons (c : Ignorable seen idle) {key k : String} {v : Value}
    {fields : Fields}
    (hidle : idle known k v) (hfresh : k ∉ fields.map (·.1)) (hkey : key ∈ known) :
    Fields.given? ((k, v) :: fields) key = fields.given? key := by
  rw [Fields.given?_cons]
  by_cases hk : key = k
  · subst hk
    have hnone : fields.get? key = none := by
      rwa [← Fields.get?_isSome_iff, Option.not_isSome_iff_eq_none] at hfresh
    rw [if_pos rfl, c.null hidle hkey, Fields.given?_eq_none_iff.mpr (.inl hnone)]
    rfl
  · rw [if_neg hk]

theorem filter_keys_cons {key : String} {v : Value} {fields : Fields} {p : String → Bool}
    (hidle : idle known key v) (hp : ∀ key v, idle known key v → p key = false) :
    (((key, v) :: fields).map (·.1)).filter p = (fields.map (·.1)).filter p := by
  rw [List.map_cons, List.filter_cons_of_neg (by rw [hp _ _ hidle]; exact Bool.false_ne_true)]

structure EditedFields (idle : List String → String → Value → Prop) (role : Role)
    (known : List String) (a b : Fields) : Prop where
  given? : ∀ key ∈ known, Option.Rel (Edited idle (role.field key)) (a.given? key) (b.given? key)
  keys : ∀ p : String → Bool, (∀ key v, idle known key v → p key = false) →
    (a.map (·.1)).filter p = (b.map (·.1)).filter p

namespace EditedFields

variable {a b : Fields} {key : String} {v w : Value}

theorem both (h : EditedFields idle role known a b) (hvw : Edited idle (role.field key) v w) :
    EditedFields idle role known ((key, v) :: a) ((key, w) :: b) where
  given? key' hkey' := by
    rw [Fields.given?_cons, Fields.given?_cons]
    by_cases hk : key' = key
    · subst hk
      rw [if_pos rfl, if_pos rfl, hvw.isNull]
      split
      · exact .none
      · exact .some hvw
    · rw [if_neg hk, if_neg hk]
      exact h.given? key' hkey'
  keys p hp := by rw [List.map_cons, List.map_cons, List.filter_cons, List.filter_cons, h.keys p hp]

theorem left (h : EditedFields idle role known a b) (c : Ignorable seen idle)
    (hidle : idle known key v) (hfresh : key ∉ a.map (·.1)) :
    EditedFields idle role known ((key, v) :: a) b where
  given? key' hkey' := by
    rw [c.given?_cons hidle hfresh hkey']
    exact h.given? key' hkey'
  keys p hp := by rw [filter_keys_cons hidle hp, h.keys p hp]

theorem right (h : EditedFields idle role known a b) (c : Ignorable seen idle)
    (hidle : idle known key w) (hfresh : key ∉ b.map (·.1)) :
    EditedFields idle role known a ((key, w) :: b) where
  given? key' hkey' := by
    rw [c.given?_cons hidle hfresh hkey']
    exact h.given? key' hkey'
  keys p hp := by rw [filter_keys_cons hidle hp, h.keys p hp]

theorem sameFields (h : EditedFields idle role known a b) (c : Ignorable seen idle) :
    SameFields seen (Edited idle) role known a b where
  given? := h.given?
  unknownKeys path := by
    let told (key : String) : Bool :=
      seen ⟨fieldPath path key, "unknown field ignored"⟩ && !known.contains key
    have hwarnings : ∀ fields : Fields, (unknownKeys path fields known).warnings.filter seen =
        (Text.sortTexts ((fields.map (·.1)).filter told)).map fun key =>
          ⟨fieldPath path key, "unknown field ignored"⟩ := by
      intro fields
      rw [unknownKeys, List.filter_map, List.filter_filter, Fields.sortedKeys,
        Text.filter_sortTexts]
      rfl
    have htold : ∀ key v, idle known key v → told key = false := by
      intro key v hidle
      by_cases hkey : key ∈ known
      · simp [told, hkey]
      · simp [told, c.unseen hidle hkey]
    rw [hwarnings, hwarnings, h.keys told htold]

end EditedFields

theorem not_mem_keys {l : List (Scalar × Value)} {fields : Fields} {key : String}
    (hl : Value.textKeyed? l = some fields) (hkey : Scalar.text key ∉ l.map (·.1)) :
    key ∉ fields.map (·.1) := by
  obtain rfl := Value.textKeyed?_eq_some_iff.mp hl
  simpa using hkey

section Entries

variable {key : String} {v w : Value} {l m : List (Scalar × Value)}

def EditedKeyed (idle : List String → String → Value → Prop) (role : Role) (known : List String)
    (l m : List (Scalar × Value)) : Prop :=
  Option.Rel (EditedFields idle role known) (Value.textKeyed? l) (Value.textKeyed? m)

namespace EditedKeyed

theorem both {key : Scalar} (h : EditedKeyed idle role known l m)
    (hvw : Edited idle (role.under key) v w) :
    EditedKeyed idle role known ((key, v) :: l) ((key, w) :: m) := by
  cases key with
  | text key =>
    rw [EditedKeyed, Value.textKeyed?, Value.textKeyed?]
    obtain ⟨hl, hm⟩ | ⟨a, b, hl, hm, hab⟩ := rel_cases h <;> rw [hl, hm]
    · exact .none
    · exact .some (hab.both hvw)
  | _ => exact .none

theorem left (h : EditedKeyed idle role known l m) (c : Ignorable seen idle)
    (hidle : idle known key v) (hfresh : .text key ∉ l.map (·.1)) :
    EditedKeyed idle role known ((.text key, v) :: l) m := by
  rw [EditedKeyed, Value.textKeyed?]
  obtain ⟨hl, hm⟩ | ⟨a, b, hl, hm, hab⟩ := rel_cases h <;> rw [hl, hm]
  · exact .none
  · exact .some (hab.left c hidle (not_mem_keys hl hfresh))

theorem right (h : EditedKeyed idle role known l m) (c : Ignorable seen idle)
    (hidle : idle known key w) (hfresh : .text key ∉ m.map (·.1)) :
    EditedKeyed idle role known l ((.text key, w) :: m) := by
  rw [EditedKeyed, Value.textKeyed?]
  obtain ⟨hl, hm⟩ | ⟨a, b, hl, hm, hab⟩ := rel_cases h <;> rw [hl, hm]
  · exact .none
  · exact .some (hab.right c hidle (not_mem_keys hm hfresh))

end EditedKeyed

theorem EditedEntries.keyed (c : Ignorable seen idle) (h : EditedEntries idle role known l m) :
    EditedKeyed idle role known l m := by
  -- on both lists, as an edit may be of one of them alone
  induction l generalizing m with
  | nil =>
    induction m with
    | nil => exact .some ⟨fun _ _ => .none, fun _ _ => rfl⟩
    | cons f t iht =>
      cases h with
      | right hidle hfresh h => exact (iht h).right c hidle hfresh
  | cons e r ih =>
    induction m with
    | nil =>
      cases h with
      | left hidle hfresh h => exact (ih h).left c hidle hfresh
    | cons f t iht =>
      cases h with
      | both hvw h => exact (ih h).both hvw
      | left hidle hfresh h => exact (ih h).left c hidle hfresh
      | right hidle hfresh h => exact (iht h).right c hidle hfresh

end Entries

theorem Ignorable.simulation (c : Ignorable seen idle) : Simulation seen (Edited idle) where
  text? h := by cases h <;> rfl
  bool? h := by cases h <;> rfl
  isNull h := h.isNull
  items? h := by
    cases h with
    | refl => exact rel_refl (fun _ => List.forall₂_same.mpr fun v _ => .refl _ v) _
    | sequence h => exact .some h.forall₂
    | mapping => exact .none
  fields? h hknown := by
    cases h with
    | refl => exact rel_refl (fun _ => ⟨fun _ _ => rel_refl (.refl _) _, fun _ => rfl⟩) _
    | sequence => exact .none
    | mapping hknown' h =>
      cases hknown.symm.trans hknown'
      obtain ⟨hv, hw⟩ | ⟨a, b, hv, hw, hab⟩ := rel_cases (h.keyed c) <;>
        rw [Value.fields?, Value.fields?, hv, hw]
      · exact .none
      · exact .some (hab.sameFields c)

theorem sameTexts_edited : SameTexts (Edited idle) := by
  intro path v w h
  cases h with
  | refl => rfl
  | mapping hknown => cases hknown

end Simulation

def IsUnknownField (known : List String) (key : String) (_ : Value) : Prop := key ∉ known

instance (known : List String) (key : String) (v : Value) :
    Decidable (IsUnknownField known key v) :=
  inferInstanceAs (Decidable (key ∉ known))

theorem ignorable_unknownField :
    Ignorable (fun w => !w.isUnknownField) IsUnknownField where
  null hidle hkey := absurd hkey hidle
  unseen _ _ _ := rfl

end Schema

open Schema in
/-- Unknown fields do nothing. With or without them, anywhere in a declaration, the outcome is the
same configuration or the same findings, and so are the other warnings; about each unknown field of
a mapping that reading gets to, there is one warning. -/
theorem build_of_unknownFields {a b : Fields}
    (h : Edited IsUnknownField .site (.record a) (.record b)) :
    (build a).map Report.site = (build b).map Report.site ∧
    (site a).warnings.filter (fun w => !w.isUnknownField) =
      (site b).warnings.filter (fun w => !w.isUnknownField) ∧
    ∀ c : Fields, (site c).warnings.filter Warning.isUnknownField =
        (reachedParts .site "" (.record c)).flatMap Part.unknownWarnings ∧
      ∀ r, build c = .ok r → r.warnings = (site c).warnings := by
  have hsite := ignorable_unknownField.simulation.site sameTexts_edited h
  exact ⟨hsite.map_site_build, hsite.warnings, fun c =>
    ⟨filter_site_warnings c, fun r hr => (build_eq_ok_iff.mp hr).2.2⟩⟩

open Schema in
theorem build_of_unknownFields_menu :
    let menu (entry : Fields) : Value := .record [("nav", .list [.record [("text", .text "More"),
      ("items", .list [.record entry])]])]
    let a : Fields := [("title", .text "Docs"), ("draft", .bool true), ("description", .text "All"),
      ("themeConfig", menu [("text", .text "Start"), ("link", .text "/start")])]
    let b : Fields := [("title", .text "Docs"), ("description", .text "All"),
      ("themeConfig", menu [("icon", .null), ("text", .text "Start"), ("link", .text "/start")])]
    Edited IsUnknownField .site (.record a) (.record b) ∧
      (build a).map Report.site = (build b).map Report.site := by
  intro menu a b
  have hentry : Edited IsUnknownField .navEntry
      (.record [("text", .text "Start"), ("link", .text "/start")])
      (.record [("icon", .null), ("text", .text "Start"), ("link", .text "/start")]) :=
    .mapping rfl (.right (by decide) (by simp) (.both (.refl _ _) (.both (.refl _ _) .nil)))
  have hnav : Edited IsUnknownField .theme
      (menu [("text", .text "Start"), ("link", .text "/start")])
      (menu [("icon", .null), ("text", .text "Start"), ("link", .text "/start")]) :=
    .mapping rfl (.both (.sequence (.cons (.mapping rfl (.both (.refl _ _)
      (.both (.sequence (.cons hentry .nil)) .nil))) .nil)) .nil)
  have h : Edited IsUnknownField .site (.record a) (.record b) :=
    .mapping rfl (.both (.refl _ _) (.left (by decide) (by simp)
      (.both (.refl _ _) (.both hnav .nil))))
  exact ⟨h, (build_of_unknownFields h).1⟩

end DocSite
