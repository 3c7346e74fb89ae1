import DocSite.Proofs.Link.Normal
import DocSite.Proofs.Path.Lexical

namespace DocSite.Link

open DocSite.Text DocSite.Path

structure CutAtSuffix (text path suffix : List Char) : Prop where
  text : text = path ++ suffix
  path : ∀ c ∈ path, c ≠ '?' ∧ c ≠ '#'
  suffix : ∀ c ∈ suffix.head?, c = '?' ∨ c = '#'

def pathOf (names : List Name) : List Char := '/' :: ['/'].intercalate names

/-- A link on the site in canonical form: the names of its path, and its query and fragment. -/
structure Canonical (names : List Name) (suffix form : List Char) : Prop where
  eq_append : form = pathOf names ++ suffix
  cut : CutAtSuffix form (pathOf names) suffix
  one_slash : ∃ rest, form = '/' :: rest ∧ rest.head? ≠ some '/'
  proper : ∀ name ∈ names, Proper name
  root : (pathOf names).getLast? = some '/' → names = []

theorem isSuffixStart_eq_false_iff {c : Char} : isSuffixStart c = false ↔ c ≠ '?' ∧ c ≠ '#' := by
  simp [isSuffixStart]

theorem isSuffixStart_iff {c : Char} : isSuffixStart c ↔ c = '?' ∨ c = '#' := by
  simp [isSuffixStart]

theorem cutAtSuffix_iff {text path suffix : List Char} :
    CutAtSuffix text path suffix ↔
      text = path ++ suffix ∧ (∀ c ∈ path, isSuffixStart c = false) ∧
        ∀ c ∈ suffix.head?, isSuffixStart c := by
  simp only [isSuffixStart_eq_false_iff, isSuffixStart_iff]
  exact ⟨fun h => ⟨h.text, h.path, h.suffix⟩, fun h => ⟨h.1, h.2.1, h.2.2⟩⟩

theorem isExternal_normalize (link : String) : isExternal (normalize link) = isExternal link := by
  simp only [isExternal, normalize, String.toList_ofList]
  by_cases hout : leavesSite (trimChars link.toList)
  · rw [normalizeChars_of_leavesSite hout, trimChars_trimChars]
  · rw [Bool.not_eq_true] at hout
    obtain ⟨path, suffix, ht, hp, hs⟩ := exists_path_suffix (trimChars link.toList)
    rw [normalizeChars_of_site hout ht hp hs, hout, leavesSite_trimChars_cleanAbsolute path hs]

theorem eq_nil_of_getLast?_pathOf {names : List Name} (h : ∀ name ∈ names, Proper name)
    (hlast : (pathOf names).getLast? = some '/') : names = [] := by
  rcases List.eq_nil_or_concat' names with rfl | ⟨above, name, rfl⟩
  · rfl
  · have hname := h name (by simp)
    obtain ⟨c, r, rfl⟩ := List.exists_cons_of_ne_nil hname.ne_nil
    rw [pathOf, ← flatMap_slash (by simp), List.flatMap_append, List.flatMap_singleton] at hlast
    have hmem : '/' ∈ c :: r := List.mem_of_getLast? (by simpa using hlast)
    exact absurd hmem hname.not_slash

theorem canonical_cleanAbsolute {path suffix : List Char}
    (hp : ∀ c ∈ path, isSuffixStart c = false) (hs : ∀ c ∈ suffix.head?, isSuffixStart c) :
    Canonical (keptNames (path.splitOn '/')) suffix (cleanAbsolute path ++ suffix) := by
  have hclean : pathOf (keptNames (path.splitOn '/')) = cleanAbsolute path :=
    (cleanAbsolute_eq_intercalate path).symm
  have hproper := proper_keptNames path
  refine ⟨by rw [hclean], ?_, cleanAbsolute_append_eq_cons path hs, hproper,
    eq_nil_of_getLast?_pathOf hproper⟩
  rw [hclean]
  exact cutAtSuffix_iff.mpr ⟨rfl, isSuffixStart_cleanAbsolute hp, hs⟩

/-- The normal form of a link stays on the site or leaves it as the link does. Outside the site it
is the trimmed link; on the site it is canonical, and its names are those that the rules for
shortening paths leave of the link's path, in whatever order they are applied. -/
theorem normalize_canonical (link : String) :
    isExternal (normalize link) = isExternal link ∧
      (isExternal link → normalize link = Text.trim link) ∧
      (isExternal link = false → ∃ path suffix, CutAtSuffix (Text.trim link).toList path suffix ∧
        Canonical (keptNames (path.splitOn '/')) suffix (normalize link).toList ∧
        ∀ names, LeftOf (path.splitOn '/') names ↔ names = keptNames (path.splitOn '/')) := by
  refine ⟨isExternal_normalize link, ?_, ?_⟩
  · intro hout
    rw [normalize, normalizeChars_of_leavesSite hout, Text.trim]
  · intro hout
    obtain ⟨path, suffix, ht, hp, hs⟩ := exists_path_suffix (trimChars link.toList)
    refine ⟨path, suffix, ?_, ?_, fun names => leftOf_iff⟩
    · rw [toList_trim]
      exact cutAtSuffix_iff.mpr ⟨ht, hp, hs⟩
    · rw [normalize, String.toList_ofList, normalizeChars_of_site hout ht hp hs]
      exact canonical_cleanAbsolute hp hs

end DocSite.Link
