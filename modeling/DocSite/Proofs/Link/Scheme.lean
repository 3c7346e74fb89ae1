import DocSite.Proofs.Site.WellFormed
import DocSite.Proofs.Text.Bytes

namespace DocSite.Link

open DocSite.Text

/-- A scheme: an ASCII letter, then ASCII letters, digits, `+`, `-` and `.`. -/
inductive IsScheme : List Char → Prop
  | mk {first : Char} {others : List Char} :
    first.isAlpha → (∀ c ∈ others, c.isAlphanum ∨ c ∈ ['+', '-', '.']) → IsScheme (first :: others)

structure SchemeOf (scheme s : List Char) : Prop where
  form : IsScheme scheme
  leads : scheme ++ [':'] <+: s

/-- What the byte at a position tells about a scheme in front. A letter leaves it open, and so does
a digit or a mark, but not in the first position; a colon ends a scheme that has begun. -/
def verdict? (position : Nat) (b : UInt8) : Option Bool :=
  let c := Char.ofUInt8 b
  if isAsciiLetter c then none
  else if isAsciiDigit c || c == '+' || c == '-' || c == '.' then
    if position = 0 then some false else none
  else if c == ':' then some (0 < position)
  else some false

def scanFrom (position : Nat) : List UInt8 → Bool
  | [] => false
  | b :: r => (verdict? position b).getD (scanFrom (position + 1) r)

/-- What the scans find in front of a text: the schemes of the grammar, both over its bytes and
where it is read as a reference, which goes without its fragment. -/
structure SchemeLaw (s : String) : Prop where
  grammar : hasScheme s.toList ↔ ∃ scheme, SchemeOf scheme s.toList
  bytes : scanFrom 0 s.toUTF8.data.toList = hasScheme s.toList
  reading (scheme : List Char) : SchemeOf scheme s.toList ↔
    scheme ≠ [] ∧ ∃ rest, scheme? (cut '#' s.toList).1 = some (scheme, rest)
  reference (reference : Reference) : Reference.parse? s.toList = some reference →
    (hasScheme s.toList ↔ reference.scheme ≠ [])
  absolute : isAbsoluteUrl s → hasScheme s.toList

variable {scheme s : List Char}

section Grammar

theorem isAsciiLetter_eq_isAlpha (c : Char) : isAsciiLetter c = c.isAlpha := by
  have hlower : c.isLower = ('a' ≤ c && c ≤ 'z') := rfl
  have hupper : c.isUpper = ('A' ≤ c && c ≤ 'Z') := Bool.decide_and _ _
  rw [isAsciiLetter, ← hlower, ← hupper, Bool.or_comm]
  rfl

theorem isSchemeChar_iff {c : Char} : isSchemeChar c ↔ c.isAlphanum ∨ c ∈ ['+', '-', '.'] := by
  have hdigit : isAsciiDigit c = c.isDigit := rfl
  simp [isSchemeChar, isAsciiLetter_eq_isAlpha, hdigit, Char.isAlphanum, or_assoc]

theorem isSchemeChar_of_isAsciiLetter {c : Char} (h : isAsciiLetter c) : isSchemeChar c := by
  simp [isSchemeChar, h]

theorem toNat_lt_of_isSchemeChar {c : Char} (h : isSchemeChar c) : c.toNat < 128 := by
  simp only [isSchemeChar, isAsciiLetter, isAsciiDigit, Char.le_def, UInt32.le_iff_toNat_le,
    Bool.or_eq_true, Bool.and_eq_true, decide_eq_true_eq, beq_iff_eq, Char.toNat_val,
    Char.reduceToNat] at h
  obtain (((hletter | hdigit) | rfl) | rfl) | rfl := h
  · omega
  · omega
  all_goals decide

theorem isScheme_cons_iff {c : Char} {r : List Char} :
    IsScheme (c :: r) ↔ isAsciiLetter c ∧ ∀ d ∈ r, isSchemeChar d := by
  simp only [isAsciiLetter_eq_isAlpha, isSchemeChar_iff]
  constructor
  · intro h
    cases h with
    | mk hfirst hothers => exact ⟨hfirst, hothers⟩
  · rintro ⟨hfirst, hothers⟩
    exact .mk hfirst hothers

theorem IsScheme.ne_nil (h : IsScheme scheme) : scheme ≠ [] := by
  cases h
  simp

theorem IsScheme.isSchemeChar (h : IsScheme scheme) : ∀ c ∈ scheme, isSchemeChar c := by
  cases scheme with
  | nil => cases h
  | cons first others =>
    obtain ⟨hfirst, hothers⟩ := isScheme_cons_iff.mp h
    exact List.forall_mem_cons.mpr ⟨isSchemeChar_of_isAsciiLetter hfirst, hothers⟩

theorem IsScheme.toNat_lt (h : IsScheme scheme) : ∀ c ∈ scheme ++ [':'], c.toNat < 128 := by
  intro c hc
  obtain hc | hc := List.mem_append.mp hc
  · exact toNat_lt_of_isSchemeChar (h.isSchemeChar c hc)
  · rw [List.mem_singleton.mp hc]
    decide

theorem schemeOf_iff : SchemeOf scheme s ↔ IsScheme scheme ∧ scheme ++ [':'] <+: s :=
  ⟨fun h => ⟨h.form, h.leads⟩, fun h => ⟨h.1, h.2⟩⟩

theorem schemeOf_append (h : IsScheme scheme) (rest : List Char) :
    SchemeOf scheme (scheme ++ ':' :: rest) :=
  ⟨h, rest, by simp⟩

theorem SchemeOf.exists_eq_append (h : SchemeOf scheme s) : ∃ rest, s = scheme ++ ':' :: rest := by
  obtain ⟨rest, hrest⟩ := h.leads
  exact ⟨rest, by simpa using hrest.symm⟩

theorem takeWhile_dropWhile_colon (h : ∀ c ∈ scheme, isSchemeChar c) (rest : List Char) :
    (scheme ++ ':' :: rest).takeWhile isSchemeChar = scheme ∧
      (scheme ++ ':' :: rest).dropWhile isSchemeChar = ':' :: rest := by
  have hcolon : ¬isSchemeChar ':' := by decide
  rw [List.takeWhile_append_of_pos h, List.dropWhile_append_of_pos h,
    List.takeWhile_cons_of_neg hcolon, List.dropWhile_cons_of_neg hcolon, List.append_nil]
  exact ⟨rfl, rfl⟩

theorem hasScheme_iff : hasScheme s ↔ ∃ scheme, SchemeOf scheme s := by
  cases s with
  | nil =>
    simp only [hasScheme, Bool.false_eq_true, false_iff, not_exists]
    intro scheme h
    simpa using h.leads
  | cons c r =>
    simp only [hasScheme, Bool.and_eq_true, beq_iff_eq]
    constructor
    · rintro ⟨hletter, hcolon⟩
      obtain ⟨rest, hrest⟩ := List.head?_eq_some_iff.mp hcolon
      refine ⟨c :: r.takeWhile isSchemeChar,
        isScheme_cons_iff.mpr ⟨hletter, fun d hd => List.mem_takeWhile_imp hd⟩, rest, ?_⟩
      rw [List.append_assoc, List.singleton_append, ← hrest, List.cons_append,
        List.takeWhile_append_dropWhile]
    · rintro ⟨scheme, h⟩
      obtain ⟨rest, hrest⟩ := h.exists_eq_append
      cases scheme with
      | nil => cases h.form
      | cons first others =>
        obtain ⟨rfl, hr⟩ := List.cons.inj (hrest.trans List.cons_append)
        obtain ⟨hletter, hothers⟩ := isScheme_cons_iff.mp h.form
        rw [hr, (takeWhile_dropWhile_colon hothers rest).2]
        exact ⟨hletter, rfl⟩

end Grammar

section Bytes

variable {bytes : List UInt8}

theorem verdict?_zero (b : UInt8) :
    verdict? 0 b = if isAsciiLetter (Char.ofUInt8 b) then none else some false := by
  simp [verdict?]

theorem verdict?_succ (position : Nat) (b : UInt8) :
    verdict? (position + 1) b =
      if isSchemeChar (Char.ofUInt8 b) then none else some (Char.ofUInt8 b == ':') := by
  simp only [verdict?, isSchemeChar, Bool.or_assoc]
  generalize Char.ofUInt8 b = c
  cases isAsciiLetter c with
  | true => rfl
  | false =>
    cases isAsciiDigit c || (c == '+' || (c == '-' || c == '.')) with
    | true => rfl
    | false => cases hcolon : c == ':' <;> simp

theorem scanFrom_succ (position : Nat) (bytes : List UInt8) :
    scanFrom (position + 1) bytes =
      (((bytes.map Char.ofUInt8).dropWhile isSchemeChar).head? == some ':') := by
  induction bytes generalizing position with
  | nil => rfl
  | cons b r ih =>
    rw [scanFrom, verdict?_succ, ih, List.map_cons, List.dropWhile_cons]
    split <;> simp

theorem scanFrom_zero (bytes : List UInt8) :
    scanFrom 0 bytes = hasScheme (bytes.map Char.ofUInt8) := by
  cases bytes with
  | nil => rfl
  | cons b r =>
    rw [scanFrom, verdict?_zero, scanFrom_succ, List.map_cons, hasScheme]
    split <;> simp_all

theorem scanFrom_iff :
    scanFrom 0 bytes ↔
      ∃ scheme, IsScheme scheme ∧ (scheme ++ [':']).map Char.toUInt8 <+: bytes := by
  simp only [scanFrom_zero, hasScheme_iff, schemeOf_iff]
  exact exists_congr fun scheme => and_congr_right fun h =>
    (map_toUInt8_prefix_iff h.toNat_lt).symm

theorem scanFrom_utf8 (s : List Char) :
    scanFrom 0 (s.flatMap String.utf8EncodeChar) = hasScheme s := by
  rw [Bool.eq_iff_iff]
  simp only [scanFrom_iff, hasScheme_iff, schemeOf_iff]
  exact exists_congr fun scheme => and_congr_right fun h =>
    map_toUInt8_prefix_utf8_iff h.toNat_lt

end Bytes

section Reading

variable {rest : List Char} {reference : Reference}

theorem fst_cut (sep : Char) (s : List Char) : (cut sep s).1 = s.takeWhile (· != sep) := by
  induction s with
  | nil => rfl
  | cons c r ih =>
    rw [cut]
    split <;> simp [*]

theorem schemeOf_cut_iff : SchemeOf scheme (cut '#' s).1 ↔ SchemeOf scheme s := by
  rw [fst_cut, schemeOf_iff, schemeOf_iff]
  refine and_congr_right fun hform => ⟨fun h => h.trans (List.takeWhile_prefix _), ?_⟩
  rintro ⟨rest, rfl⟩
  have hhash : ∀ c ∈ scheme ++ [':'], c != '#' := by
    intro c hc
    rw [bne_iff_ne]
    rintro rfl
    obtain hc | hc := List.mem_append.mp hc
    · exact absurd (hform.isSchemeChar _ hc) (by decide)
    · exact absurd hc (by decide)
  rw [List.takeWhile_append_of_pos hhash]
  exact List.prefix_append _ _

theorem scheme?_append (h : IsScheme scheme) (rest : List Char) :
    scheme? (scheme ++ ':' :: rest) = some (scheme, rest) := by
  obtain ⟨htake, hdrop⟩ := takeWhile_dropWhile_colon h.isSchemeChar rest
  cases scheme with
  | nil => cases h
  | cons first others =>
    have hletter := (isScheme_cons_iff.mp h).1
    have hcolon : first ≠ ':' := by
      rintro rfl
      exact absurd hletter (by decide)
    rw [List.cons_append] at htake hdrop ⊢
    simp only [scheme?, if_neg hcolon, if_pos hletter, hdrop, htake]

theorem scheme?_cases (h : scheme? s = some (scheme, rest)) :
    scheme = [] ∨ IsScheme scheme ∧ s = scheme ++ ':' :: rest := by
  cases s with
  | nil =>
    cases h
    exact .inl rfl
  | cons c r =>
    simp only [scheme?] at h
    split at h
    · cases h
    · split at h
      next hletter =>
        split at h
        next hdrop =>
          cases h
          rw [← hdrop, List.takeWhile_append_dropWhile,
            List.takeWhile_cons_of_pos (isSchemeChar_of_isAsciiLetter hletter)]
          exact .inr ⟨isScheme_cons_iff.mpr ⟨hletter, fun d hd => List.mem_takeWhile_imp hd⟩, rfl⟩
        next =>
          cases h
          exact .inl rfl
      next =>
        cases h
        exact .inl rfl

theorem schemeOf_iff_scheme? :
    SchemeOf scheme s ↔ scheme ≠ [] ∧ ∃ rest, scheme? s = some (scheme, rest) := by
  constructor
  · intro h
    obtain ⟨rest, rfl⟩ := h.exists_eq_append
    exact ⟨h.form.ne_nil, rest, scheme?_append h.form rest⟩
  · rintro ⟨hne, rest, hscheme⟩
    obtain hnil | ⟨hform, rfl⟩ := scheme?_cases hscheme
    · exact absurd hnil hne
    · exact schemeOf_append hform rest

theorem schemeOf_iff_scheme?_cut :
    SchemeOf scheme s ↔
      scheme ≠ [] ∧ ∃ rest, scheme? (cut '#' s).1 = some (scheme, rest) := by
  rw [← schemeOf_cut_iff, schemeOf_iff_scheme?]

theorem Reference.scheme_of_ofHierarchy? (h : Reference.ofHierarchy? scheme rest = some reference) :
    reference.scheme = scheme := by
  unfold Reference.ofHierarchy? at h
  grind

theorem Reference.exists_scheme?_of_parse? (h : Reference.parse? s = some reference) :
    ∃ rest, scheme? (cut '#' s).1 = some (reference.scheme, rest) := by
  simp only [Reference.parse?] at h
  split at h
  · cases h
  · split at h
    · cases h
    next scheme rest hscheme =>
      split at h
      · cases h
      next hhierarchy =>
        split at h
        · cases h
          exact ⟨rest, by rw [hscheme, Reference.scheme_of_ofHierarchy? hhierarchy]⟩
        · cases h

theorem hasScheme_iff_of_parse? (h : Reference.parse? s = some reference) :
    hasScheme s ↔ reference.scheme ≠ [] := by
  obtain ⟨rest, hrest⟩ := Reference.exists_scheme?_of_parse? h
  simp only [hasScheme_iff, schemeOf_iff_scheme?_cut]
  constructor
  · rintro ⟨scheme, hne, rest', hrest'⟩
    rw [hrest] at hrest'
    cases hrest'
    exact hne
  · intro hne
    exact ⟨reference.scheme, hne, rest, hrest⟩

end Reading

section Absolute

variable {link : String}

theorem hasScheme_of_isAbsoluteUrl (h : isAbsoluteUrl link) : hasScheme link.toList := by
  obtain ⟨-, -, reference, hparse, hscheme, -⟩ := isAbsoluteUrl_iff.mp h
  exact (hasScheme_iff_of_parse? hparse).mpr hscheme

theorem isExternal_of_isAbsoluteUrl (h : isAbsoluteUrl link) : isExternal link := by
  obtain ⟨-, htrim, -⟩ := isAbsoluteUrl_iff.mp h
  rw [isExternal, ← Text.toList_trim, htrim, leavesSite, hasScheme_of_isAbsoluteUrl h,
    Bool.true_or]

theorem normalize_of_isAbsoluteUrl (h : isAbsoluteUrl link) : normalize link = link := by
  obtain ⟨-, htrim, -⟩ := isAbsoluteUrl_iff.mp h
  rw [normalize_of_isExternal (isExternal_of_isAbsoluteUrl h), htrim]

end Absolute

/-- The scans for a scheme agree on every text, and the scan of bytes is right on all bytes. So
every social link of a site that is built leaves the site and is its own normal form. -/
theorem scheme_scans_agree :
    (∀ s : String, SchemeLaw s) ∧
    (∀ bytes, scanFrom 0 bytes ↔
      ∃ scheme, IsScheme scheme ∧ (scheme ++ [':']).map Char.toUInt8 <+: bytes) ∧
    ∀ declaration r, build declaration = .ok r → ∀ links, r.site.theme.socialLinks = some links →
      ∀ link ∈ links, isExternal link.link ∧ normalize link.link = link.link := by
  refine ⟨fun s => ?_, fun bytes => scanFrom_iff, ?_⟩
  · exact {
      grammar := hasScheme_iff
      bytes := by rw [toList_toUTF8, scanFrom_utf8]
      reading := fun _ => schemeOf_iff_scheme?_cut
      reference := fun _ hparse => hasScheme_iff_of_parse? hparse
      absolute := hasScheme_of_isAbsoluteUrl }
  · intro declaration r hbuild links hlinks link hlink
    have hurl := ((wellFormed_of_build hbuild).theme.socialLinks links hlinks link hlink).link
    exact ⟨isExternal_of_isAbsoluteUrl hurl, normalize_of_isAbsoluteUrl hurl⟩

theorem scheme_scans_agree_zone :
    let url := "git+SSH.2://me@[fe80::1%25en0]:22/a%2Fb?q=%zz#top"
    let reference := Reference.mk "git+SSH.2".toList "[fe80::1%25en0]:22".toList "/a%2Fb".toList
    let declaration := [("title", .text "T"), ("description", .text "D"),
      ("themeConfig", .record [("socialLinks",
        .list [.record [("icon", .text "github"), ("link", .text url)]])])]
    Reference.parse? url.toList = some reference ∧ isAbsoluteUrl url ∧ hasScheme url.toList ∧
      reference.scheme ≠ [] ∧
      ∃ r, build declaration = .ok r ∧ r.site.theme.socialLinks = some [⟨"github", url⟩] ∧
        isExternal url ∧ normalize url = url := by
  intro url reference declaration
  have hparse : Reference.parse? url.toList = some reference := by decide +kernel
  have habsolute : isAbsoluteUrl url := by decide +kernel
  have hscheme := (scheme_scans_agree.1 url).absolute habsolute
  have hreference := ((scheme_scans_agree.1 url).reference reference hparse).mp hscheme
  have hbuilt : (build declaration).toOption.bind (·.site.theme.socialLinks) =
      some [⟨"github", url⟩] := by decide +kernel
  obtain ⟨r, hr, hlinks⟩ := Option.bind_eq_some_iff.mp hbuilt
  have hbuild : build declaration = .ok r := by
    cases h : build declaration <;> simp_all [Except.toOption]
  have hlink := scheme_scans_agree.2.2 declaration r hbuild _ hlinks ⟨"github", url⟩
    (List.mem_singleton_self _)
  exact ⟨hparse, habsolute, hscheme, hreference, r, hbuild, hlinks, hlink⟩

end DocSite.Link
