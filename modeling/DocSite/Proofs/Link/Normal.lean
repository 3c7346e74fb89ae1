import DocSite.Link.Normal
import DocSite.Proofs.Path
import DocSite.Proofs.Text.Trim

/-!
Normal forms of links under a second normalization. A link that leaves the site and one with a query
or fragment keep their normal form. On any other link the blanks that trimming removes from the end
of the whole text can still stand at the end of its last name, and the second normalization removes
them; so the normal form is kept exactly when that name ends in no blank.
-/

namespace DocSite.Link

open DocSite.Text DocSite.Path

theorem leavesSite_slash {r : List Char} (h : r.head? ≠ some '/') :
    leavesSite ('/' :: r) = false := by
  have hp : isProtocolRelative ('/' :: r) = false := by
    unfold isProtocolRelative
    split
    · simp_all
    · rfl
  rw [leavesSite, hp, Bool.or_false]
  rfl

theorem isAbsoluteUrl_iff {link : String} :
    isAbsoluteUrl link ↔ link ≠ "" ∧ Text.trim link = link ∧
      ∃ reference, Reference.parse? link.toList = some reference ∧
        reference.scheme ≠ [] ∧ reference.host ≠ [] := by
  simp only [isAbsoluteUrl, Bool.and_eq_true, Bool.not_eq_true', List.isEmpty_eq_false_iff,
    beq_iff_eq, and_assoc, ← String.toList_inj, Text.toList_trim, ne_eq, String.toList_empty]
  cases Reference.parse? link.toList <;> simp

theorem normalizeChars_of_leavesSite {link : List Char} (h : leavesSite (trimChars link)) :
    normalizeChars link = trimChars link := by
  rw [normalizeChars]
  exact if_pos h

theorem normalize_of_isExternal {link : String} (h : isExternal link) :
    normalize link = Text.trim link := by
  rw [normalize, normalizeChars_of_leavesSite h, Text.trim]

@[simp] theorem normalize_trim (link : String) : normalize (Text.trim link) = normalize link := by
  simp [normalize, normalizeChars]

theorem takeWhile_dropWhile_suffix {path suffix : List Char}
    (hp : ∀ c ∈ path, isSuffixStart c = false)
    (hs : ∀ c ∈ suffix.head?, isSuffixStart c) :
    (path ++ suffix).takeWhile (fun c => !isSuffixStart c) = path ∧
      (path ++ suffix).dropWhile (fun c => !isSuffixStart c) = suffix := by
  have hpath : ∀ c ∈ path, (!isSuffixStart c) = true := fun c hc => by simp [hp c hc]
  rw [List.takeWhile_append_of_pos hpath, List.dropWhile_append_of_pos hpath]
  cases suffix with
  | nil => simp
  | cons c r => simp [hs c rfl]

theorem normalizeChars_of_site {link path suffix : List Char}
    (h : leavesSite (trimChars link) = false)
    (ht : trimChars link = path ++ suffix) (hp : ∀ c ∈ path, isSuffixStart c = false)
    (hs : ∀ c ∈ suffix.head?, isSuffixStart c) :
    normalizeChars link = cleanAbsolute path ++ suffix := by
  obtain ⟨htake, hdrop⟩ := takeWhile_dropWhile_suffix hp hs
  rw [ht] at h
  simp only [normalizeChars, ht, h, Bool.false_eq_true, if_false, htake, hdrop]

theorem exists_path_suffix (s : List Char) :
    ∃ path suffix, s = path ++ suffix ∧ (∀ c ∈ path, isSuffixStart c = false) ∧
      ∀ c ∈ suffix.head?, isSuffixStart c := by
  refine ⟨_, _, (List.takeWhile_append_dropWhile (p := fun c => !isSuffixStart c) (l := s)).symm,
    ?_, ?_⟩
  · intro c hc
    simpa using List.mem_takeWhile_imp hc
  · intro c hc
    simpa [Option.mem_def.mp hc] using List.head?_dropWhile_not (fun c => !isSuffixStart c) s

@[simp] theorem isBlankText_normalize (link : String) : isBlankText (normalize link) = false := by
  rw [← Bool.not_eq_true, ← trim_eq_empty_iff, ← String.toList_inj]
  simp only [toList_trim, normalize, String.toList_ofList, String.toList_empty]
  by_cases hout : leavesSite (trimChars link.toList)
  · rw [normalizeChars_of_leavesSite hout, trimChars_trimChars]
    intro hnil
    rw [hnil] at hout
    cases hout
  · rw [Bool.not_eq_true] at hout
    obtain ⟨path, suffix, ht, hp, hs⟩ := exists_path_suffix (trimChars link.toList)
    obtain ⟨r, hr, _⟩ := cleanAbsolute_eq_cons path
    rw [normalizeChars_of_site hout ht hp hs, hr, List.cons_append, trimChars_cons (by decide)]
    simp

theorem normalize_ne_empty (link : String) : normalize link ≠ "" := by
  intro h
  have hblank := isBlankText_normalize link
  rw [h] at hblank
  exact absurd hblank (by decide)

theorem isSuffixStart_cleanAbsolute {path : List Char} (hp : ∀ c ∈ path, isSuffixStart c = false) :
    ∀ c ∈ cleanAbsolute path, isSuffixStart c = false := by
  intro c hc
  rcases mem_cleanAbsolute hc with rfl | hc
  · rfl
  · exact hp c hc

theorem cleanAbsolute_append_eq_cons (path : List Char) {suffix : List Char}
    (hs : ∀ c ∈ suffix.head?, isSuffixStart c) :
    ∃ rest, cleanAbsolute path ++ suffix = '/' :: rest ∧ rest.head? ≠ some '/' := by
  obtain ⟨r, hr, hslash⟩ := cleanAbsolute_eq_cons path
  refine ⟨r ++ suffix, by rw [hr, List.cons_append], ?_⟩
  cases r with
  | nil =>
    intro h
    exact absurd (hs '/' h) (by decide)
  | cons c r => simpa using hslash

theorem leavesSite_cleanAbsolute (path : List Char) {suffix : List Char}
    (hs : ∀ c ∈ suffix.head?, isSuffixStart c) :
    leavesSite (cleanAbsolute path ++ suffix) = false := by
  obtain ⟨rest, hrest, hslash⟩ := cleanAbsolute_append_eq_cons path hs
  rw [hrest]
  exact leavesSite_slash hslash

theorem normalizeChars_cleanAbsolute {path suffix : List Char}
    (hp : ∀ c ∈ path, isSuffixStart c = false) (hs : ∀ c ∈ suffix.head?, isSuffixStart c)
    (hl : ∀ c ∈ (cleanAbsolute path ++ suffix).getLast?, isBlank c = false) :
    normalizeChars (cleanAbsolute path ++ suffix) = cleanAbsolute path ++ suffix := by
  have ht : trimChars (cleanAbsolute path ++ suffix) = cleanAbsolute path ++ suffix := by
    rw [trimChars_eq_self_iff]
    refine ⟨?_, hl⟩
    obtain ⟨r, hr, _⟩ := cleanAbsolute_eq_cons path
    rintro c hc
    rw [hr] at hc
    obtain rfl : '/' = c := by simpa using hc
    decide
  rw [normalizeChars_of_site (by rw [ht]; exact leavesSite_cleanAbsolute path hs) ht
    (isSuffixStart_cleanAbsolute hp) hs, cleanAbsolute_cleanAbsolute]

theorem trimChars_trail_slash (place : Place) (name : Name) :
    trimChars (trail place ++ '/' :: name) = trail place ++ '/' :: dropEndWhile isBlank name := by
  have hslash : dropEndWhile isBlank ('/' :: name) = '/' :: dropEndWhile isBlank name := by
    rw [← trimChars_cons (by decide), trimChars, List.dropWhile_cons_of_neg (by decide)]
  have hstart : (trail place ++ '/' :: name).dropWhile isBlank = trail place ++ '/' :: name := by
    rw [trail]
    cases place.reverse with
    | nil => exact List.dropWhile_cons_of_neg (by decide)
    | cons first others => exact List.dropWhile_cons_of_neg (by decide)
  rw [trimChars, hstart, dropEndWhile_append _ (by rw [hslash]; simp), hslash]

theorem step_dropEndWhile_ne {place : Place} {name : Name} {c : Char} (hc : c ∈ name.getLast?)
    (hb : isBlank c) : step place (dropEndWhile isBlank name) ≠ name :: place := by
  intro h
  rcases step_cases place (dropEndWhile isBlank name) with hs | hs | ⟨_, hs⟩ <;> rw [hs] at h
  · exact absurd (congrArg List.length h) (by simp)
  · have hlen := congrArg List.length h
    simp only [List.length_tail, List.length_cons] at hlen
    omega
  · have hself : dropEndWhile isBlank name = name := (List.cons.inj h).1
    rw [dropEndWhile_eq_self_iff] at hself
    exact absurd (hself c hc) (by simp [hb])

theorem leavesSite_trimChars_cleanAbsolute (path : List Char) {suffix : List Char}
    (hs : ∀ c ∈ suffix.head?, isSuffixStart c) :
    leavesSite (trimChars (cleanAbsolute path ++ suffix)) = false := by
  obtain ⟨rest, hrest, hslash⟩ := cleanAbsolute_append_eq_cons path hs
  rw [hrest, trimChars_cons (by decide)]
  exact leavesSite_slash fun h => hslash (head?_dropEndWhile h)

theorem normalizeChars_cleanAbsolute_nil {path : List Char}
    (hp : ∀ c ∈ path, isSuffixStart c = false) :
    normalizeChars (cleanAbsolute path) = cleanAbsolute (trimChars (cleanAbsolute path)) := by
  have hout : leavesSite (trimChars (cleanAbsolute path ++ [])) = false :=
    leavesSite_trimChars_cleanAbsolute path (by simp)
  rw [List.append_nil] at hout
  rw [← List.append_nil (cleanAbsolute (trimChars _))]
  refine normalizeChars_of_site hout (List.append_nil _).symm ?_ (by simp)
  intro c hc
  exact isSuffixStart_cleanAbsolute hp c (mem_of_mem_trimChars hc)

theorem normalizeChars_cleanAbsolute_ne {path : List Char} {place : Place} {name : Name} {c : Char}
    (hp : ∀ c ∈ path, isSuffixStart c = false) (h : follow [] path = name :: place)
    (hc : c ∈ name.getLast?) (hb : isBlank c) :
    normalizeChars (cleanAbsolute path) ≠ cleanAbsolute path := by
  intro heq
  have hproper := follow_proper (by simp : ∀ n ∈ ([] : Place), Proper n) path
  rw [h] at hproper
  have hname := hproper name List.mem_cons_self
  have hshort : '/' ∉ dropEndWhile isBlank name := fun hs =>
    hname.not_slash (mem_of_mem_dropEndWhile hs)
  have hclean : cleanAbsolute path = trail place ++ '/' :: name := by
    rw [cleanAbsolute, h, render_cons]
  rw [normalizeChars_cleanAbsolute_nil hp] at heq
  have hfollow := congrArg (follow []) heq
  rw [follow_cleanAbsolute, follow_cleanAbsolute, h, hclean, trimChars_trail_slash,
    follow_append_slash, follow_trail fun n hn => hproper n (List.mem_cons_of_mem _ hn),
    follow_of_not_mem _ hshort] at hfollow
  exact step_dropEndWhile_ne hc hb hfollow

theorem getLast?_cleanAbsolute {path : List Char}
    (h : ∀ name ∈ (follow [] path).head?, ∀ c ∈ name.getLast?, isBlank c = false) :
    ∀ c ∈ (cleanAbsolute path).getLast?, isBlank c = false := by
  have hproper := follow_proper (by simp : ∀ n ∈ ([] : Place), Proper n) path
  rw [cleanAbsolute]
  generalize follow [] path = place at h hproper
  cases place with
  | nil =>
    intro c hc
    obtain rfl : '/' = c := by simpa using hc
    decide
  | cons name place =>
    intro c hc
    obtain ⟨d, r, hr⟩ := List.exists_cons_of_ne_nil (hproper name List.mem_cons_self).ne_nil
    apply h name rfl
    rw [render_cons] at hc
    simpa [hr, List.getLast?_append, List.getLast?_cons] using hc

/-- A path on the site keeps its normal form exactly when its last name ends in no blank. -/
theorem normalizeChars_cleanAbsolute_eq_iff {path : List Char}
    (hp : ∀ c ∈ path, isSuffixStart c = false) :
    normalizeChars (cleanAbsolute path) = cleanAbsolute path ↔
      ∀ name ∈ (follow [] path).head?, ∀ c ∈ name.getLast?, isBlank c = false := by
  constructor
  · intro heq name hname c hc
    have hfollow : follow [] path = name :: (follow [] path).tail := List.eq_cons_of_mem_head? hname
    by_contra hb
    exact normalizeChars_cleanAbsolute_ne hp hfollow hc (by simpa using hb) heq
  · intro h
    have hkept := @normalizeChars_cleanAbsolute path [] hp (by simp)
      (by rw [List.append_nil]; exact getLast?_cleanAbsolute h)
    rwa [List.append_nil] at hkept

theorem normalizeChars_cleanAbsolute_suffix {s path suffix : List Char}
    (ht : trimChars s = path ++ suffix) (hp : ∀ c ∈ path, isSuffixStart c = false)
    (hs : ∀ c ∈ suffix.head?, isSuffixStart c) (hne : suffix ≠ []) :
    normalizeChars (cleanAbsolute path ++ suffix) = cleanAbsolute path ++ suffix := by
  apply normalizeChars_cleanAbsolute hp hs
  intro c hc
  apply getLast?_trimChars (s := s)
  rw [ht]
  rwa [List.getLast?_append_of_ne_nil _ hne] at hc ⊢

/-- Normalizing once more changes nothing exactly for links that leave the site, links with a query
or fragment, and links whose last name, dots resolved, ends in no blank. -/
theorem normalize_normalize_eq_iff (link : String) :
    normalize (normalize link) = normalize link ↔
      isExternal link ∨ (trimChars link.toList).any isSuffixStart ∨
        ∀ name ∈ (follow [] (trimChars link.toList)).head?, ∀ c ∈ name.getLast?,
          isBlank c = false := by
  rw [← String.toList_inj]
  simp only [normalize, isExternal, String.toList_ofList]
  generalize link.toList = s
  by_cases hout : leavesSite (trimChars s)
  · rw [normalizeChars_of_leavesSite hout, normalizeChars_of_leavesSite] <;> simp [hout]
  · rw [Bool.not_eq_true] at hout
    obtain ⟨path, suffix, ht, hp, hs⟩ := exists_path_suffix (trimChars s)
    rw [normalizeChars_of_site hout ht hp hs, hout, ht]
    cases suffix with
    | nil =>
      have hany : path.any isSuffixStart = false := by simpa using hp
      simp [hany, normalizeChars_cleanAbsolute_eq_iff hp]
    | cons d r =>
      have hany : (path ++ d :: r).any isSuffixStart := by simp [hs d rfl]
      simp [hany, normalizeChars_cleanAbsolute_suffix ht hp hs]

theorem normalize_blank_before_slash :
    normalize "a /" = "/a " ∧ normalize (normalize "a /") ≠ normalize "a /" := by
  decide +kernel

end DocSite.Link
