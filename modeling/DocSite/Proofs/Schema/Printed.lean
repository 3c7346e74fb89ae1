import DocSite.Proofs.Schema.Outline
import DocSite.Proofs.Site.Sidebar

namespace DocSite

open Binary64 (IsNumberChar IsNumberText)

structure IsNameChar (c : Char) : Prop where
  scheme : Link.isSchemeChar c
  not_suffix : Link.isSuffixStart c = false
  not_blank : Text.isBlank c = false
  not_slash : c ≠ '/'

theorem isNameChar_of_isNumberChar {c : Char} (h : IsNumberChar c) : IsNameChar c := by
  obtain hdigit | hmark := h
  · have hscheme : Link.isAsciiDigit c := hdigit
    have hne {d : Char} (hd : d.isDigit = false) : c ≠ d := Number.ne_of_isDigit hdigit hd
    have hbounds : 48 ≤ c.toNat ∧ c.toNat ≤ 57 := by
      simpa [Char.isDigit, UInt32.le_iff_toNat_le] using hdigit
    refine ⟨by simp [Link.isSchemeChar, hscheme], ?_, ?_, hne (by decide)⟩
    · simp [Link.isSuffixStart, hne (d := '?') (by decide), hne (d := '#') (by decide)]
    · simp only [Text.isBlank, Bool.or_eq_false_iff, Bool.and_eq_false_imp, decide_eq_true_eq,
        decide_eq_false_iff_not, not_le, beq_eq_false_iff_ne, ne_eq]
      omega
  · simp only [List.mem_cons, List.not_mem_nil, or_false] at hmark
    obtain rfl | rfl | rfl | rfl := hmark <;> constructor <;> decide

theorem leavesSite_of_isNumberText {s : List Char} (h : IsNumberText s) :
    Link.leavesSite s = false := by
  cases s with
  | nil => rfl
  | cons c r =>
    have hscheme : r.dropWhile Link.isSchemeChar = [] := by
      rw [List.dropWhile_eq_nil_iff]
      exact fun d hd =>
        (isNameChar_of_isNumberChar (h.chars d (List.mem_cons_of_mem c hd))).scheme
    have hrelative : Link.isProtocolRelative (c :: r) = false := by
      unfold Link.isProtocolRelative
      split
      · rename_i heq
        obtain ⟨rfl, -⟩ := List.cons.inj heq
        exact absurd rfl (isNameChar_of_isNumberChar (h.chars _ List.mem_cons_self)).not_slash
      · rfl
    simp [Link.leavesSite, Link.hasScheme, hscheme, hrelative]

theorem toList_normalize_of_isNumberText {s : String} (h : IsNumberText s.toList) :
    (Link.normalize s).toList = '/' :: s.toList := by
  have hname (c : Char) (hc : c ∈ s.toList) := isNameChar_of_isNumberChar (h.chars c hc)
  have htrim : Text.trimChars s.toList = s.toList := by
    rw [Text.trimChars_eq_self_iff]
    exact ⟨fun c hc => (hname c (List.mem_of_mem_head? hc)).not_blank,
      fun c hc => (hname c (List.mem_of_mem_getLast? hc)).not_blank⟩
  have hproper : Path.Proper s.toList := by
    obtain ⟨c, hc, hdigit⟩ := h.digit
    refine ⟨List.ne_nil_of_mem hc, ?_, ?_, fun hslash => (hname _ hslash).not_slash rfl⟩ <;>
      intro hs <;> rw [hs] at hc
    · simp_all [Char.isDigit]
    · simp_all [Char.isDigit]
  have hnormal : Link.normalizeChars s.toList = Path.cleanAbsolute s.toList ++ [] :=
    Link.normalizeChars_of_site (by rw [htrim, leavesSite_of_isNumberText h])
      (by rw [htrim, List.append_nil]) (fun c hc => (hname c hc).not_suffix) nofun
  rw [Link.normalize, String.toList_ofList, hnormal, List.append_nil, Path.cleanAbsolute,
    Path.follow_of_not_mem _ hproper.not_slash, Path.step_of_proper hproper]
  simp [Path.trail]

def assetText (key s : String) : String :=
  if Schema.assetAttributes.contains key && s != "" then Link.normalize s else s

theorem normalizeAssets_eq : Schema.normalizeAssets = (·.mapValues assetText) := rfl

theorem assetText_inj (key s t : String) (hs : IsNumberText s.toList) (ht : IsNumberText t.toList)
    (h : assetText key s = assetText key t) : s = t := by
  have hne {s : String} (hs : IsNumberText s.toList) : (s != "") = true := by
    obtain ⟨c, hc, -⟩ := hs.digit
    rw [bne_iff_ne]
    rintro rfl
    cases hc
  rw [assetText, assetText, hne hs, hne ht, Bool.and_true] at h
  split at h
  · rw [← String.toList_inj, toList_normalize_of_isNumberText hs,
      toList_normalize_of_isNumberText ht] at h
    exact String.toList_inj.mp (List.cons.inj h).2
  · exact h

namespace Format

variable {f g : Format} {i : Int} {s t : Scalar}

def Agree (f g : Format) (i : Int) : Prop := (f = .json ↔ g = .json) ∨ i.natAbs < 1000000

theorem scalarText?_of_ne_json (h : f.integer? i = some s) (hf : f ≠ .json) :
    (Value.scalar s).scalarText? = some (toString i) := by
  obtain ⟨rfl, -⟩ | ⟨-, width, hwidth, rfl⟩ := integer?_cases h
  · exact absurd rfl hf
  · cases width with
    | other => exact absurd rfl hwidth
    | _ => rfl

theorem exists_text_of_integer? (h : f.integer? i = some s) :
    ∃ text, (Value.scalar s).scalarText? = some text ∧ IsNumberText text.toList := by
  obtain ⟨-, x, hx, rfl⟩ | ⟨hf, -⟩ := integer?_cases h
  · obtain ⟨negative, m, e, rfl⟩ := Binary64.exists_finite_of_readFloat hx
    exact ⟨_, rfl, Binary64.isNumberText_text negative m e⟩
  · exact ⟨toString i, scalarText?_of_ne_json h hf, Binary64.isNumberText_toString i⟩

theorem scalarText?_json (h : json.integer? i = some s) :
    (Value.scalar s).scalarText? = some (toString i) ↔ i.natAbs < 1000000 := by
  obtain ⟨-, x, hx, rfl⟩ | ⟨hf, -⟩ := integer?_cases h
  · rw [← Binary64.text_eq_iff_of_readFloat hx]
    exact Option.some_inj
  · exact absurd rfl hf

theorem scalarText?_eq_iff (hs : f.integer? i = some s) (ht : g.integer? i = some t) :
    (Value.scalar s).scalarText? = (Value.scalar t).scalarText? ↔ f.Agree g i := by
  rw [Agree]
  by_cases hf : f = .json <;> by_cases hg : g = .json
  · subst hf
    subst hg
    obtain rfl := Option.some.inj (hs.symm.trans ht)
    simp
  · subst hf
    rw [scalarText?_of_ne_json ht hg, scalarText?_json hs]
    simp [hg]
  · subst hg
    rw [scalarText?_of_ne_json hs hf, eq_comm, scalarText?_json ht]
    simp [hf]
  · rw [scalarText?_of_ne_json hs hf, scalarText?_of_ne_json ht hg]
    simp [hf, hg]

end Format

namespace Outline

inductive Holds : Outline → Int → Prop
  | mk {fields : List (String × Outline)} {key : String} {i : Int} :
    fields.lookup key = some (.integer i) → Holds (.record fields) i

theorem not_holds_null {i : Int} : ¬Holds .null i := by
  rintro ⟨⟩

def tagParts : Outline → Option Outline × Option Outline
  | .record fields => (fields.lookup "tagName", fields.lookup "attributes")
  | .list [name] => (some name, none)
  | .list [name, attributes] => (some name, some attributes)
  | _ => (none, none)

/-- The integer stands where a configuration holds its text: among the attributes of a head tag, or
among the options of the search. -/
inductive Prints (fields : List (String × Outline)) : Int → Prop
  | ofTag {tags : List Outline} {tag attributes : Outline} {i : Int} :
    fields.lookup "head" = some (.list tags) → tag ∈ tags → tag.tagParts.2 = some attributes →
      attributes.Holds i → Prints fields i
  | ofSearch {theme search : List (String × Outline)} {options : Outline} {i : Int} :
    fields.lookup "themeConfig" = some (.record theme) →
      theme.lookup "search" = some (.record search) → search.lookup "options" = some options →
      options.Holds i → Prints fields i

end Outline

theorem Outline.decodes_record {format : Format} {fields : List (String × Outline)} {a : Fields}
    (hnodup : (a.map (·.1)).Nodup)
    (h : List.Forall₂ (fun e f => e.1 = f.1 ∧ e.2.Decodes format f.2) fields a) :
    (record fields).Decodes format (.record a) :=
  .record hnodup (Text.rel_lookup h)

section Compare

variable {f g : Format} {o : Outline} {v w : Value}

theorem decodes_given {p : Option Outline} {x y : Option Value}
    (hx : Option.Rel (Outline.Decodes f) p x) (hy : Option.Rel (Outline.Decodes g) p y) :
    (x.filter fun v => !v.isNull) = none ∧ (y.filter fun v => !v.isNull) = none ∧
        (∀ o ∈ p, o = .null) ∨
      ∃ o v w, p = some o ∧ (x.filter fun v => !v.isNull) = some v ∧
        (y.filter fun v => !v.isNull) = some w ∧ o.Decodes f v ∧ o.Decodes g w := by
  cases hx with
  | none =>
    cases hy
    exact .inl ⟨rfl, rfl, nofun⟩
  | @some o v hv =>
    cases hy with
    | @some _ w hw =>
      rw [Option.filter_some, Option.filter_some, ← (hv.alike hw).isNull]
      cases h : v.isNull with
      | true =>
        obtain rfl := Value.isNull_iff.mp h
        obtain rfl := hv.eq_null
        exact .inl ⟨rfl, rfl, by simp⟩
      | false => exact .inr ⟨o, v, w, rfl, rfl, rfl, hv, hw⟩

theorem given_eq_iff {R : Value → α → Prop} {F : α → β} {P : Outline → Prop} (hnull : P .null)
    (hread : ∀ o v w s t, Outline.Decodes f o v → Outline.Decodes g o w → R v s → R w t →
      (F s = F t ↔ P o)) {p : Option Outline} {x y : Option Value} {m n : Option α}
    (hx : Option.Rel (Outline.Decodes f) p x) (hy : Option.Rel (Outline.Decodes g) p y)
    (hm : Option.Rel R (x.filter fun v => !v.isNull) m)
    (hn : Option.Rel R (y.filter fun v => !v.isNull) n) :
    m.isSome = n.isSome ∧ (m.map F = n.map F ↔ ∀ o, p = some o → P o) := by
  obtain ⟨hnx, hny, hp⟩ | ⟨o, v, w, rfl, hsx, hsy, hv, hw⟩ := decodes_given hx hy
  · rw [hnx, rel_none_iff] at hm
    rw [hny, rel_none_iff] at hn
    subst hm
    subst hn
    exact ⟨rfl, iff_of_true rfl fun o ho => hp o ho ▸ hnull⟩
  · rw [hsx, rel_some_iff] at hm
    rw [hsy, rel_some_iff] at hn
    obtain ⟨s, rfl, hs⟩ := hm
    obtain ⟨t, rfl, ht⟩ := hn
    refine ⟨rfl, ?_⟩
    rw [Option.map_some, Option.map_some, Option.some_inj, hread o v w s t hv hw hs ht]
    simp

theorem getD_eq_iff {m n : Option α} (h : m.isSome = n.isSome) (d : α) :
    m.getD d = n.getD d ↔ m = n := by
  cases m <;> cases n <;> simp_all

theorem text_eq_iff {change : String → String}
    (hchange : ∀ s t : String, IsNumberText s.toList → IsNumberText t.toList →
      change s = change t → s = t) {s t : String} (hv : o.Decodes f v) (hw : o.Decodes g w)
    (hs : v.scalarText? = some s) (ht : w.scalarText? = some t) :
    change s = change t ↔ ∀ i, o = .integer i → f.Agree g i := by
  cases hv with
  | null => cases hs
  | bool b =>
    cases hw
    obtain rfl := Option.some.inj (hs.symm.trans ht)
    simp
  | text b =>
    cases hw
    obtain rfl := Option.some.inj (hs.symm.trans ht)
    simp
  | @integer i _ hi =>
    cases hw with
    | integer hj =>
      obtain ⟨_, hs', hns⟩ := Format.exists_text_of_integer? hi
      obtain ⟨_, ht', hnt⟩ := Format.exists_text_of_integer? hj
      obtain rfl := Option.some.inj (hs'.symm.trans hs)
      obtain rfl := Option.some.inj (ht'.symm.trans ht)
      have hagree := Format.scalarText?_eq_iff hi hj
      rw [hs, ht, Option.some_inj] at hagree
      constructor
      · rintro h _ ⟨⟩
        exact hagree.mp (hchange _ _ hns hnt h)
      · intro h
        rw [hagree.mpr (h i rfl)]
  | list => cases hs
  | record => cases hs

theorem fieldText_eq_iff {change : String → String}
    (hchange : ∀ s t : String, IsNumberText s.toList → IsNumberText t.toList →
      change s = change t → s = t) {p : Option Outline} {x y : Option Value}
    {s t : Option String} (hx : Option.Rel (Outline.Decodes f) p x)
    (hy : Option.Rel (Outline.Decodes g) p y) (hs : x.map Value.scalarText? = s.map some)
    (ht : y.map Value.scalarText? = t.map some) :
    s.map change = t.map change ↔ ∀ i, p = some (.integer i) → f.Agree g i := by
  cases hx with
  | none =>
    cases hy
    rw [Option.map_eq_none_iff.mp hs.symm, Option.map_eq_none_iff.mp ht.symm]
    simp
  | some hv =>
    cases hy with
    | some hw =>
      obtain ⟨s, rfl, hsv⟩ := Option.map_eq_some_iff.mp hs.symm
      obtain ⟨t, rfl, htw⟩ := Option.map_eq_some_iff.mp ht.symm
      rw [Option.map_some, Option.map_some, Option.some_inj,
        text_eq_iff hchange hv hw hsv.symm htw.symm]
      simp

theorem texts_eq_iff {change : String → String → String}
    (hchange : ∀ key, ∀ s t : String, IsNumberText s.toList → IsNumberText t.toList →
      change key s = change key t → s = t) {m n : TextMap} (hv : o.Decodes f v)
    (hw : o.Decodes g w) (hm : v.TextsOf m) (hn : w.TextsOf n) :
    m.mapValues change = n.mapValues change ↔ ∀ i, o.Holds i → f.Agree g i := by
  obtain ⟨a, ha, hm⟩ := hm
  obtain ⟨b, hb, hn⟩ := hn
  obtain ⟨fields, rfl, hda⟩ := hv.exists_record ha
  have hdb := (hw.fields hb).2
  have hkey (key : String) : (m.mapValues change).get? key = (n.mapValues change).get? key ↔
      ∀ i, fields.lookup key = some (.integer i) → f.Agree g i := by
    rw [TextMap.get?_mapValues, TextMap.get?_mapValues]
    exact fieldText_eq_iff (hchange key) (hda key) (hdb key) (hm key) (hn key)
  rw [TextMap.ext_iff]
  constructor
  · rintro h i ⟨hi⟩
    exact (hkey _).mp (h _) i hi
  · exact fun h key => (hkey key).mpr fun i hi => h i ⟨hi⟩

theorem decodes_tagParts {name attributes : Option Value} (h : o.Decodes f v)
    (hform : HeadTag.Form v name attributes) :
    Option.Rel (Outline.Decodes f) o.tagParts.1 name ∧
      Option.Rel (Outline.Decodes f) o.tagParts.2 attributes := by
  cases hform with
  | mapping hv =>
    obtain ⟨fields, rfl, hfields⟩ := h.exists_record hv
    exact ⟨hfields _, hfields _⟩
  | single hv =>
    cases h with
    | list hitems =>
      cases hv
      obtain ⟨name, _, hname, hnil, rfl⟩ := List.forall₂_cons_right_iff.mp hitems
      cases hnil
      exact ⟨.some hname, .none⟩
    | _ => cases hv
  | pair hv =>
    cases h with
    | list hitems =>
      cases hv
      obtain ⟨name, _, hname, hrest, rfl⟩ := List.forall₂_cons_right_iff.mp hitems
      obtain ⟨attributes, _, hattributes, hnil, rfl⟩ := List.forall₂_cons_right_iff.mp hrest
      cases hnil
      exact ⟨.some hname, .some hattributes⟩
    | _ => cases hv

theorem headTag_eq_iff {t u : HeadTag} (hv : o.Decodes f v) (hw : o.Decodes g w)
    (ht : HeadTag.DeclaredBy v t) (hu : HeadTag.DeclaredBy w u) :
    t = u ↔ ∀ attributes i, o.tagParts.2 = some attributes → attributes.Holds i → f.Agree g i := by
  obtain ⟨_, attributes, hform, @⟨raw, texts, rfl, -, htexts⟩⟩ := ht
  obtain ⟨_, attributes', hform', @⟨raw', texts', rfl, -, htexts'⟩⟩ := hu
  obtain ⟨hname, ha⟩ := decodes_tagParts hv hform
  obtain ⟨hname', hb⟩ := decodes_tagParts hw hform'
  have hraw : raw = raw' := by
    cases Outline.alike_of_decodes hname hname' with
    | some h => exact Option.some.inj h.text?
  have htexts := (given_eq_iff (F := (·.mapValues assetText))
    (P := fun o => ∀ i, o.Holds i → f.Agree g i) (fun _ h => (Outline.not_holds_null h).elim)
    (fun _ _ _ _ _ hv hw => texts_eq_iff assetText_inj hv hw) ha hb htexts htexts').2
  rw [HeadTag.mk.injEq, hraw, normalizeAssets_eq, htexts]
  exact ⟨fun h attributes i hattributes => h.2 attributes hattributes i,
    fun h => ⟨rfl, fun attributes hattributes i => h attributes i hattributes⟩⟩

theorem tags_eq_iff {tags : List Outline} {l m : List Value} {t u : List HeadTag}
    (hl : List.Forall₂ (Outline.Decodes f) tags l) (hm : List.Forall₂ (Outline.Decodes g) tags m)
    (ht : List.Forall₂ HeadTag.DeclaredBy l t) (hu : List.Forall₂ HeadTag.DeclaredBy m u) :
    t = u ↔ ∀ tag ∈ tags, ∀ attributes i, tag.tagParts.2 = some attributes →
      attributes.Holds i → f.Agree g i := by
  induction hl generalizing m t u with
  | nil =>
    cases hm
    cases ht
    cases hu
    simp
  | cons hv _ ih =>
    obtain _ | ⟨hw, hm⟩ := hm
    obtain _ | ⟨hta, ht⟩ := ht
    obtain _ | ⟨hua, hu⟩ := hu
    rw [List.cons.injEq, headTag_eq_iff hv hw hta hua, ih hm ht hu, List.forall_mem_cons]

theorem headTags_eq_iff {t u : List HeadTag} (hv : o.Decodes f v) (hw : o.Decodes g w)
    (ht : v.ListOf HeadTag.DeclaredBy t) (hu : w.ListOf HeadTag.DeclaredBy u) :
    t = u ↔ ∀ tags, o = .list tags → ∀ tag ∈ tags, ∀ attributes i,
      tag.tagParts.2 = some attributes → attributes.Holds i → f.Agree g i := by
  obtain ⟨l, hl, ht⟩ := ht
  obtain ⟨m, hm, hu⟩ := hu
  cases hv with
  | list hv =>
    cases hw with
    | list hw =>
      cases hl
      cases hm
      rw [tags_eq_iff hv hw ht hu]
      simp
  | _ => cases hl

theorem options_eq_iff {m n : TextMap} (hv : o.Decodes f v) (hw : o.Decodes g w)
    (hm : v.TextsOf m) (hn : w.TextsOf n) : m = n ↔ ∀ i, o.Holds i → f.Agree g i := by
  have hkept (m : TextMap) : m.mapValues (fun _ s => s) = m := by
    simp [TextMap.mapValues]
  have htexts := texts_eq_iff (fun _ _ _ _ _ h => h) hv hw hm hn
  rwa [hkept, hkept] at htexts

theorem search_eq_iff {s t : Search} (hv : o.Decodes f v) (hw : o.Decodes g w)
    (hs : Search.DeclaredBy v s) (ht : Search.DeclaredBy w t) :
    s = t ↔ ∀ fields options i, o = .record fields → fields.lookup "options" = some options →
      options.Holds i → f.Agree g i := by
  obtain @⟨_, provider, m, ha, hprovider, -, hm, -⟩ := hs
  obtain @⟨_, provider', n, hb, hprovider', -, hn, -⟩ := ht
  obtain ⟨fields, rfl, hda⟩ := hv.exists_record ha
  have hdb := (hw.fields hb).2
  have hsame : provider = provider' := by
    have hread := Outline.alike_of_decodes (hda "provider") (hdb "provider")
    rw [hprovider, hprovider'] at hread
    cases hread with
    | some h => exact Option.some.inj h.text?
  obtain ⟨hsome, htexts⟩ := given_eq_iff (F := id)
    (P := fun o => ∀ i, o.Holds i → f.Agree g i) (fun _ h => (Outline.not_holds_null h).elim)
    (fun _ _ _ _ _ => options_eq_iff) (hda "options") (hdb "options") hm hn
  rw [Option.map_id, id, id] at htexts
  rw [Search.mk.injEq, getD_eq_iff hsome, htexts]
  constructor
  · rintro ⟨-, h⟩ _ options i ⟨⟩ hoptions
    exact h options hoptions i
  · exact fun h => ⟨hsame, fun options hoptions i => h fields options i rfl hoptions⟩

variable {fields : List (String × Outline)} {a b : Fields}

theorem head_eq_iff {s t : Site}
    (ha : ∀ key, Option.Rel (Outline.Decodes f) (fields.lookup key) (a.get? key))
    (hb : ∀ key, Option.Rel (Outline.Decodes g) (fields.lookup key) (b.get? key))
    (hs : Site.DeclaredBy a s) (ht : Site.DeclaredBy b t) :
    s.head = t.head ↔ ∀ o, fields.lookup "head" = some o → ∀ tags, o = .list tags → ∀ tag ∈ tags,
      ∀ attributes i, tag.tagParts.2 = some attributes → attributes.Holds i → f.Agree g i := by
  have hhead := (given_eq_iff (F := id) nofun (fun _ _ _ _ _ => headTags_eq_iff) (ha "head")
    (hb "head") hs.head ht.head).2
  rwa [Option.map_id, id, id] at hhead

theorem themeSearch_eq_iff {s t : Theme}
    (ha : ∀ key, Option.Rel (Outline.Decodes f) (fields.lookup key) (a.get? key))
    (hb : ∀ key, Option.Rel (Outline.Decodes g) (fields.lookup key) (b.get? key))
    (hs : Theme.DeclaredBy a s) (ht : Theme.DeclaredBy b t) :
    s.search = t.search ↔ ∀ o, fields.lookup "search" = some o → ∀ search options i,
      o = .record search → search.lookup "options" = some options → options.Holds i →
      f.Agree g i := by
  have hsearch := (given_eq_iff (F := id) nofun (fun _ _ _ _ _ => search_eq_iff) (ha "search")
    (hb "search") hs.search ht.search).2
  rwa [Option.map_id, id, id] at hsearch

theorem sectionSearch_eq_iff {s t : Theme} (hv : o.Decodes f v) (hw : o.Decodes g w)
    (hs : ∃ c : Fields, v.fields? = some c ∧ Theme.DeclaredBy c s)
    (ht : ∃ c : Fields, w.fields? = some c ∧ Theme.DeclaredBy c t) :
    s.search = t.search ↔ ∀ theme, o = .record theme → ∀ o, theme.lookup "search" = some o →
      ∀ search options i, o = .record search → search.lookup "options" = some options →
      options.Holds i → f.Agree g i := by
  obtain ⟨c, hc, hs⟩ := hs
  obtain ⟨d, hd, ht⟩ := ht
  cases o with
  | record theme =>
    rw [themeSearch_eq_iff (hv.fields hc).2 (hw.fields hd).2 hs ht]
    simp
  | _ =>
    cases hv
    cases hc

theorem siteSearch_eq_iff {s t : Site}
    (ha : ∀ key, Option.Rel (Outline.Decodes f) (fields.lookup key) (a.get? key))
    (hb : ∀ key, Option.Rel (Outline.Decodes g) (fields.lookup key) (b.get? key))
    (hs : Site.DeclaredBy a s) (ht : Site.DeclaredBy b t) :
    s.theme.search = t.theme.search ↔ ∀ o, fields.lookup "themeConfig" = some o → ∀ theme,
      o = .record theme → ∀ o, theme.lookup "search" = some o → ∀ search options i,
      o = .record search → search.lookup "options" = some options → options.Holds i →
      f.Agree g i := by
  obtain ⟨theme, hs, hst⟩ := hs.theme
  obtain ⟨theme', ht, htt⟩ := ht.theme
  obtain ⟨hsome, hsearch⟩ := given_eq_iff (F := Theme.search) nofun
    (fun _ _ _ _ _ => sectionSearch_eq_iff) (ha "themeConfig") (hb "themeConfig") hs ht
  rw [← hsearch, hst, htt]
  cases theme <;> cases theme' <;> simp_all

/-- Two decodings of one declaration build one configuration exactly where the formats give every
number one text whose text a configuration holds. -/
theorem site_eq_iff {s t : Site}
    (ha : ∀ key, Option.Rel (Outline.Decodes f) (fields.lookup key) (a.get? key))
    (hb : ∀ key, Option.Rel (Outline.Decodes g) (fields.lookup key) (b.get? key))
    (hs : Site.DeclaredBy a s) (ht : Site.DeclaredBy b t) (h : s.withoutTexts = t.withoutTexts) :
    s = t ↔ ∀ i, Outline.Prints fields i → f.Agree g i := by
  rw [Site.eq_iff_of_withoutTexts h, head_eq_iff ha hb hs ht, siteSearch_eq_iff ha hb hs ht]
  constructor
  · rintro ⟨hhead, hsearch⟩ i hi
    cases hi with
    | ofTag htags htag hattributes hi => exact hhead _ htags _ rfl _ htag _ i hattributes hi
    | ofSearch htheme hs hoptions hi => exact hsearch _ htheme _ rfl _ hs _ _ i rfl hoptions hi
  · intro h
    constructor
    · rintro _ htags _ rfl _ htag _ i hattributes hi
      exact h i (.ofTag htags htag hattributes hi)
    · rintro _ htheme _ rfl _ hs _ _ i rfl hoptions hi
      exact h i (.ofSearch htheme hs hoptions hi)

end Compare

/-- A declaration in two formats is refused for the same faults. It builds one configuration, with
the same warnings, exactly where both formats or none are JSON or the integers whose text is taken
are below a million; and that is where the formats give an integer one text. -/
theorem build_eq_build_iff {f g : Format} {fields : List (String × Outline)} {a b : Fields}
    (ha : (Outline.record fields).Decodes f (.record a))
    (hb : (Outline.record fields).Decodes g (.record b)) :
    (∀ fault, build a = .error fault ↔ build b = .error fault) ∧
    (build a = build b ↔ (∃ fault, build a = .error fault) ∨ (f = .json ↔ g = .json) ∨
      ∀ i, Outline.Prints fields i → i.natAbs < 1000000) ∧
    ∀ i s t, f.integer? i = some s → g.integer? i = some t →
      ((Value.scalar s).scalarText? = (Value.scalar t).scalarText? ↔
        (f = .json ↔ g = .json) ∨ i.natAbs < 1000000) := by
  obtain ⟨hna, hda⟩ := ha.fields (Value.fields?_record a)
  obtain ⟨hnb, hdb⟩ := hb.fields (Value.fields?_record b)
  have halike : Fields.Alike a b :=
    ⟨hna, hnb, fun key => Outline.alike_of_decodes (hda key) (hdb key)⟩
  suffices h : (∀ fault, build a = .error fault ↔ build b = .error fault) ∧
      (build a = build b ↔ (∃ fault, build a = .error fault) ∨ (f = .json ↔ g = .json) ∨
        ∀ i, Outline.Prints fields i → i.natAbs < 1000000) from
    ⟨h.1, h.2, fun i s t hs ht => Format.scalarText?_eq_iff hs ht⟩
  obtain ⟨fault, hfa, hfb⟩ | ⟨r, s, hra, hrb, hwarnings, hsite⟩ := build_alike halike
  · simp [hfa, hfb]
  · have hreport : r = s ↔ r.site = s.site := by
      cases r
      cases s
      simp_all
    have hsame := site_eq_iff hda hdb (build_eq_ok_iff.mp hra).1 (build_eq_ok_iff.mp hrb).1 hsite
    simp only [hra, hrb, reduceCtorEq, exists_false, false_or, Except.ok.injEq, implies_true,
      true_and, hreport, hsame]
    by_cases hjson : f = .json ↔ g = .json <;> simp [Format.Agree, hjson]

def Outline.tagged (i : Int) : List (String × Outline) :=
  [("title", .text "T"), ("description", .text "D"),
    ("head", .list [.list [.text "meta", .record [("content", .integer i)]]])]

def Fields.tagged (s : Scalar) : Fields :=
  [("title", .text "T"), ("description", .text "D"),
    ("head", .list [.list [.text "meta", .record [("content", .scalar s)]]])]

theorem Outline.decodes_tagged {format : Format} {i : Int} {s : Scalar}
    (h : format.integer? i = some s) :
    (Outline.record (tagged i)).Decodes format (.record (Fields.tagged s)) := by
  have hcontent : (Outline.record [("content", .integer i)]).Decodes format
      (.record [("content", .scalar s)]) :=
    decodes_record (by simp) (.cons ⟨rfl, .integer h⟩ .nil)
  have hhead : (Outline.list [.list [.text "meta", .record [("content", .integer i)]]]).Decodes
      format (.list [.list [.text "meta", .record [("content", .scalar s)]]]) :=
    .list (.cons (.list (.cons (.text "meta") (.cons hcontent .nil))) .nil)
  exact decodes_record (by simp [Fields.tagged])
    (.cons ⟨rfl, .text "T"⟩ (.cons ⟨rfl, .text "D"⟩ (.cons ⟨rfl, hhead⟩ .nil)))

theorem Outline.eq_of_prints_tagged {i j : Int} (h : Prints (tagged i) j) : j = i := by
  cases h with
  | ofTag htags htag hattributes hj =>
    cases htags
    rw [List.mem_singleton] at htag
    subst htag
    cases hattributes
    obtain ⟨hj⟩ := hj
    rw [Text.lookup_cons] at hj
    split at hj
    · cases hj
      rfl
    · cases hj
  | ofSearch htheme => cases htheme

theorem build_eq_build_tagged :
    Format.json.integer? 999999 = some (.float (.ofInt 999999)) ∧
    Format.yaml.integer? 999999 = some (.integer .native 999999) ∧
    build (Fields.tagged (.float (.ofInt 999999))) =
      build (Fields.tagged (.integer .native 999999)) := by
  have hjson : Format.json.integer? 999999 = some (.float (.ofInt 999999)) := by decide +kernel
  have hyaml : Format.yaml.integer? 999999 = some (.integer .native 999999) := by decide +kernel
  have hbelow (i : Int) (h : Outline.Prints (Outline.tagged 999999) i) : i.natAbs < 1000000 := by
    rw [Outline.eq_of_prints_tagged h]
    decide
  exact ⟨hjson, hyaml, (build_eq_build_iff (Outline.decodes_tagged hjson)
    (Outline.decodes_tagged hyaml)).2.1.mpr (.inr (.inr hbelow))⟩

def builtHead (r : Except Fault Report) : Option (List HeadTag) := r.toOption.bind (·.site.head)

theorem build_tagged_million :
    (Outline.record (Outline.tagged 1000000)).Decodes .json
      (.record (Fields.tagged (.float (.ofInt 1000000)))) ∧
    (Outline.record (Outline.tagged 1000000)).Decodes .yaml
      (.record (Fields.tagged (.integer .native 1000000))) ∧
    builtHead (build (Fields.tagged (.float (.ofInt 1000000)))) =
      some [⟨"meta", some (.ofList [("content", "1e+06")])⟩] ∧
    builtHead (build (Fields.tagged (.integer .native 1000000))) =
      some [⟨"meta", some (.ofList [("content", "1000000")])⟩] ∧
    builtHead (Format.json.decode ("\x7b\"title\": \"T\", \"description\": \"D\", " ++
      "\"head\": [[\"meta\", \x7b\"content\": 1000000\x7d]]\x7d") >>= build) =
      some [⟨"meta", some (.ofList [("content", "1e+06")])⟩] ∧
    builtHead (Format.yaml.decode ("title: T\ndescription: D\n" ++
      "head: [[meta, \x7bcontent: 1000000\x7d]]\n") >>= build) =
      some [⟨"meta", some (.ofList [("content", "1000000")])⟩] ∧
    builtHead (Format.toml.decode ("title = 'T'\ndescription = 'D'\n" ++
      "head = [['meta', \x7bcontent = 1000000\x7d]]\n") >>= build) =
      some [⟨"meta", some (.ofList [("content", "1000000")])⟩] := by
  refine ⟨Outline.decodes_tagged ?_, Outline.decodes_tagged ?_, ?_, ?_, ?_, ?_, ?_⟩ <;>
    decide +kernel

end DocSite
