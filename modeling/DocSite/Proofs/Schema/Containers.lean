import DocSite.Proofs.Fields
import DocSite.Proofs.Schema.Simulation
import Mathlib.Data.List.Nodup

namespace DocSite

/-- The values have the same contents: the same members in their order, and the same entries in any
order, in containers of any kinds. -/
inductive Value.Same : Value → Value → Prop
  | scalar (s : Scalar) : Same (.scalar s) (.scalar s)
  | sequence {kind kind' : SequenceKind} {l m : List Value} :
    List.Forall₂ Same l m → Same (.sequence kind l) (.sequence kind' m)
  | mapping {kind kind' : MappingKind} {l l' m : List (Scalar × Value)} :
    (l.map (·.1)).Nodup → l.Perm l' → l'.map (·.1) = m.map (·.1) →
    List.Forall₂ Same (l'.map (·.2)) (m.map (·.2)) → Same (.mapping kind l) (.mapping kind' m)

structure Fields.Same (a b : Fields) : Prop where
  keys : (a.map (·.1)).Perm (b.map (·.1))
  get? : ∀ key, Option.Rel Value.Same (a.get? key) (b.get? key)

namespace Value

theorem textKeyed?_cons (e : Scalar × Value) (r : List (Scalar × Value)) :
    textKeyed? (e :: r) =
      (scalar e.1).text?.bind fun key => (textKeyed? r).map ((key, e.2) :: ·) := by
  obtain ⟨key, v⟩ := e
  cases key <;> rfl

theorem rel_textKeyed?_of_perm {l m : List (Scalar × Value)} (h : l.Perm m) :
    Option.Rel List.Perm (textKeyed? l) (textKeyed? m) := by
  induction h with
  | nil => exact .some .nil
  | cons e _ ih =>
    rw [textKeyed?_cons, textKeyed?_cons]
    cases (scalar e.1).text? with
    | none => exact .none
    | some key =>
      obtain ⟨hl, hm⟩ | ⟨a, b, hl, hm, hab⟩ := rel_cases ih <;> rw [hl, hm]
      · exact .none
      · exact .some (hab.cons _)
  | swap e f r =>
    simp only [textKeyed?_cons]
    cases (scalar e.1).text? <;> cases (scalar f.1).text? <;> cases textKeyed? r <;>
      simp [List.Perm.swap]
  | trans _ _ ih ih' =>
    obtain ⟨hl, hm⟩ | ⟨a, b, hl, hm, hab⟩ := rel_cases ih
    · rw [hm] at ih'
      rw [hl]
      exact ih'
    · rw [hm] at ih'
      obtain ⟨c, hn, hbc⟩ := rel_some_iff.mp ih'
      rw [hl, hn]
      exact .some (hab.trans hbc)

theorem rel_textKeyed? {l m : List (Scalar × Value)} (hkeys : l.map (·.1) = m.map (·.1))
    (h : List.Forall₂ Same (l.map (·.2)) (m.map (·.2))) :
    Option.Rel (List.Forall₂ fun f g => f.1 = g.1 ∧ Same f.2 g.2) (textKeyed? l)
      (textKeyed? m) := by
  induction l generalizing m with
  | nil =>
    obtain rfl := List.map_eq_nil_iff.mp hkeys.symm
    exact .some .nil
  | cons e r ih =>
    obtain _ | ⟨f, t⟩ := m
    · cases hkeys
    simp only [List.map_cons, List.cons.injEq, List.forall₂_cons] at hkeys h
    rw [textKeyed?_cons, textKeyed?_cons, hkeys.1]
    cases (scalar f.1).text? with
    | none => exact .none
    | some key =>
      obtain ⟨hl, hm⟩ | ⟨a, b, hl, hm, hab⟩ := rel_cases (ih hkeys.2 h.2) <;> rw [hl, hm]
      · exact .none
      · exact .some (.cons ⟨rfl, h.1⟩ hab)

end Value

theorem Fields.keys_eq {R : Value → Value → Prop} {a b : Fields}
    (h : List.Forall₂ (fun f g => f.1 = g.1 ∧ R f.2 g.2) a b) : a.map (·.1) = b.map (·.1) := by
  induction h with
  | nil => rfl
  | cons hfg _ ih => rw [List.map_cons, List.map_cons, hfg.1, ih]

theorem Fields.rel_get? {a b : Fields}
    (h : List.Forall₂ (fun f g => f.1 = g.1 ∧ Value.Same f.2 g.2) a b) (key : String) :
    Option.Rel Value.Same (a.get? key) (b.get? key) :=
  Text.rel_lookup h key

namespace Value.Same

variable {v w : Value}

theorem text? (h : Same v w) : v.text? = w.text? := by cases h <;> rfl

theorem bool? (h : Same v w) : v.bool? = w.bool? := by cases h <;> rfl

theorem isNull (h : Same v w) : v.isNull = w.isNull := by cases h <;> rfl

theorem scalarText? (h : Same v w) : v.scalarText? = w.scalarText? := by cases h <;> rfl

theorem items? (h : Same v w) : Option.Rel (List.Forall₂ Same) v.items? w.items? := by
  cases h with
  | sequence h => exact .some h
  | _ => exact .none

theorem fields? (h : Same v w) : Option.Rel Fields.Same v.fields? w.fields? := by
  cases h with
  | @mapping _ _ l l' m hnodup hperm hkeys hvalues =>
    rw [Value.fields?, Value.fields?]
    obtain ⟨hl, hl'⟩ | ⟨a, a', hl, hl', haa'⟩ := rel_cases (rel_textKeyed?_of_perm hperm)
    · have hrel := rel_textKeyed? hkeys hvalues
      rw [hl', rel_none_iff] at hrel
      rw [hl, hrel]
      exact .none
    · have hrel := rel_textKeyed? hkeys hvalues
      rw [hl', rel_some_iff] at hrel
      obtain ⟨b, hm, hab⟩ := hrel
      rw [hl, hm]
      have hnodup' : (a.map (·.1)).Nodup := by
        obtain rfl := textKeyed?_eq_some_iff.mp hl
        have htexts : (a.map fun f => (Scalar.text f.1, f.2)).map (·.1) =
            (a.map (·.1)).map Scalar.text := by rw [List.map_map, List.map_map]; rfl
        exact .of_map Scalar.text (htexts ▸ hnodup)
      refine .some ⟨(haa'.map _).trans (.of_eq (Fields.keys_eq hab)), fun key => ?_⟩
      rw [Fields.get?_of_perm ((haa'.map _).nodup_iff.mp hnodup') haa' key]
      exact Fields.rel_get? hab key
  | _ => exact .none

end Value.Same

namespace Fields.Same

variable {a b : Fields}

theorem sortedKeys (h : Same a b) : a.sortedKeys = b.sortedKeys := Text.sortTexts_of_perm h.keys

theorem given? (h : Same a b) (key : String) :
    Option.Rel Value.Same (a.given? key) (b.given? key) :=
  Fields.rel_given? Value.Same.isNull (h.get? key)

end Fields.Same

namespace Schema

theorem unknownKeys_same {a b : Fields} (h : Fields.Same a b) (path : String)
    (known : List String) : unknownKeys path a known = unknownKeys path b known := by
  rw [unknownKeys, unknownKeys, h.sortedKeys]

theorem simulation_same : Simulation (fun _ => true) fun _ => Value.Same where
  text? := Value.Same.text?
  bool? := Value.Same.bool?
  isNull := Value.Same.isNull
  items? := Value.Same.items?
  fields? h _ := by
    obtain ⟨hv, hw⟩ | ⟨a, b, hv, hw, hab⟩ := rel_cases h.fields? <;> rw [hv, hw]
    · exact .none
    · exact .some ⟨fun key _ => hab.given? key, fun path => by rw [unknownKeys_same hab]⟩

theorem scalarEntries_same {a b : Fields} (h : Fields.Same a b) (path : String)
    (keys : List String) : scalarEntries path a keys = scalarEntries path b keys := by
  induction keys with
  | nil => rfl
  | cons key r ih =>
    have hbind : (a.get? key).bind Value.scalarText? = (b.get? key).bind Value.scalarText? := by
      obtain ⟨ha, hb⟩ | ⟨v, w, ha, hb, hvw⟩ := rel_cases (h.get? key) <;> rw [ha, hb]
      exact hvw.scalarText?
    rw [scalarEntries, scalarEntries, hbind, ih]

theorem sameTexts_same : SameTexts fun _ => Value.Same := by
  intro path v w h
  rw [textMap, textMap]
  obtain ⟨hv, hw⟩ | ⟨a, b, hv, hw, hab⟩ := rel_cases h.fields? <;> rw [hv, hw]
  simp only [hab.sortedKeys, scalarEntries_same hab]

end Schema

/-- A declaration means what its contents say: in containers of any kinds and with the entries of
its mappings in any order, it is refused with the same findings in the same order, or accepted as
the same configuration with the same warnings in the same order. -/
theorem build_of_same {a b : Fields} (h : Value.Same (.record a) (.record b)) :
    build a = build b :=
  (Schema.simulation_same.site Schema.sameTexts_same h).build_eq

theorem build_of_same_menu :
    let a : Fields := [("title", .text "Docs"), ("description", .text "All"),
      ("head", .list [.list [.text "link",
        .record [("rel", .text "icon"), ("href", .text "/logo.png")]]]),
      ("themeConfig", .record [("nav", .list [.record [("text", .text "Start"),
        ("link", .text "/start"), ("icon", .bool true)]])])]
    let b : Fields := [("title", .text "Docs"), ("description", .text "All"),
      ("head", .sequence .sequences [.sequence .pair [.text "link",
        .mapping .texts [(.text "href", .text "/logo.png"), (.text "rel", .text "icon")]]]),
      ("themeConfig", .mapping .general [(.text "nav", .sequence .mappings [.mapping .plain [
        (.text "icon", .bool true), (.text "link", .text "/start"),
          (.text "text", .text "Start")]])])]
    Value.Same (.record a) (.record b) ∧ build a = build b := by
  intro a b
  have hattributes : Value.Same
      (.record [("rel", .text "icon"), ("href", .text "/logo.png")])
      (.mapping .texts [(.text "href", .text "/logo.png"), (.text "rel", .text "icon")]) :=
    .mapping (by simp) (.swap _ _ _) rfl (.cons (.scalar _) (.cons (.scalar _) .nil))
  have hentry : Value.Same
      (.record [("text", .text "Start"), ("link", .text "/start"), ("icon", .bool true)])
      (.mapping .plain [(.text "icon", .bool true), (.text "link", .text "/start"),
        (.text "text", .text "Start")]) :=
    .mapping (by simp) (List.reverse_perm _).symm rfl
      (.cons (.scalar _) (.cons (.scalar _) (.cons (.scalar _) .nil)))
  have h : Value.Same (.record a) (.record b) := by
    refine .mapping (by simp [a]) (.refl _) rfl
      (.cons (.scalar _) (.cons (.scalar _) (.cons ?head (.cons ?theme .nil))))
    case head =>
      exact .sequence (.cons (.sequence (.cons (.scalar _) (.cons hattributes .nil))) .nil)
    case theme =>
      exact .mapping (by simp) (.refl _) rfl (.cons (.sequence (.cons hentry .nil)) .nil)
  exact ⟨h, build_of_same h⟩

end DocSite
