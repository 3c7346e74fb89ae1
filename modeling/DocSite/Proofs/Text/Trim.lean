import DocSite.Text.Blank
import Mathlib.Data.List.DropRight

namespace DocSite.Text

theorem dropEndWhile_eq_rdropWhile (p : α → Bool) (l : List α) :
    dropEndWhile p l = l.rdropWhile p := by
  induction l with
  | nil => rfl
  | cons a r ih =>
    rw [dropEndWhile_cons, ih]
    simp only [List.rdropWhile, List.reverse_cons, List.dropWhile_append, List.isEmpty_iff,
      List.reverse_eq_nil_iff]
    by_cases h : List.dropWhile p r.reverse = []
    · by_cases ha : p a <;> simp [h, ha]
    · simp [h]

theorem dropEndWhile_eq_nil_iff {p : α → Bool} {l : List α} :
    dropEndWhile p l = [] ↔ ∀ a ∈ l, p a := by
  rw [dropEndWhile_eq_rdropWhile, List.rdropWhile_eq_nil_iff]

theorem dropEndWhile_eq_self_iff {p : α → Bool} {l : List α} :
    dropEndWhile p l = l ↔ ∀ a ∈ l.getLast?, p a = false := by
  rw [dropEndWhile_eq_rdropWhile, List.rdropWhile_eq_self_iff]
  rcases List.eq_nil_or_concat l with rfl | ⟨r, a, rfl⟩ <;> simp

theorem dropEndWhile_initial (p : α → Bool) (l : List α) : dropEndWhile p l <+: l := by
  rw [dropEndWhile_eq_rdropWhile]
  exact List.rdropWhile_prefix p l

theorem mem_of_mem_dropEndWhile {p : α → Bool} {l : List α} {a : α} (h : a ∈ dropEndWhile p l) :
    a ∈ l :=
  (dropEndWhile_initial p l).subset h

theorem head?_dropEndWhile {p : α → Bool} {l : List α} {a : α}
    (h : a ∈ (dropEndWhile p l).head?) : a ∈ l.head? := by
  obtain ⟨t, ht⟩ := dropEndWhile_initial p l
  rw [← ht, Option.mem_def, List.head?_append, Option.mem_def.mp h]
  rfl

theorem dropEndWhile_append {p : α → Bool} (l : List α) {r : List α}
    (h : dropEndWhile p r ≠ []) : dropEndWhile p (l ++ r) = l ++ dropEndWhile p r := by
  induction l with
  | nil => rfl
  | cons a l ih =>
    rw [List.cons_append, dropEndWhile_cons, ih, if_neg]
    · rfl
    · simp [h]

theorem trimChars_eq_self_iff {s : List Char} :
    trimChars s = s ↔
      (∀ c ∈ s.head?, isBlank c = false) ∧ ∀ c ∈ s.getLast?, isBlank c = false := by
  constructor
  · intro h
    have hend : dropEndWhile isBlank s = s := by
      rw [← h, trimChars, dropEndWhile_idem]
    refine ⟨?_, dropEndWhile_eq_self_iff.mp hend⟩
    intro c hc
    rw [← h] at hc
    have hd := head?_dropEndWhile hc
    simpa [Option.mem_def.mp hd] using List.head?_dropWhile_not isBlank s
  · rintro ⟨hhead, hlast⟩
    have hd : s.dropWhile isBlank = s := by
      cases s with
      | nil => rfl
      | cons c r => simp [hhead c rfl]
    rw [trimChars, hd, dropEndWhile_eq_self_iff]
    exact hlast

theorem mem_of_mem_trimChars {s : List Char} {c : Char} (h : c ∈ trimChars s) : c ∈ s :=
  (List.dropWhile_sublist isBlank).subset (mem_of_mem_dropEndWhile h)

theorem head?_trimChars {s : List Char} {c : Char} (h : c ∈ (trimChars s).head?) :
    isBlank c = false := by
  have hd := head?_dropEndWhile h
  simpa [Option.mem_def.mp hd] using List.head?_dropWhile_not isBlank s

theorem getLast?_trimChars {s : List Char} {c : Char} (h : c ∈ (trimChars s).getLast?) :
    isBlank c = false :=
  dropEndWhile_eq_self_iff.mp (dropEndWhile_idem isBlank (s.dropWhile isBlank)) c h

@[simp] theorem trimChars_trimChars (s : List Char) : trimChars (trimChars s) = trimChars s :=
  trimChars_eq_self_iff.mpr ⟨fun _ h => head?_trimChars h, fun _ h => getLast?_trimChars h⟩

theorem trimChars_eq_nil_iff {s : List Char} : trimChars s = [] ↔ ∀ c ∈ s, isBlank c := by
  rw [trimChars, dropEndWhile_eq_nil_iff]
  constructor
  · intro h
    have hd : s.dropWhile isBlank = [] := by
      cases hs : s.dropWhile isBlank with
      | nil => rfl
      | cons c r =>
        have hc := h c (by simp [hs])
        have hn := List.head?_dropWhile_not isBlank s
        simp [hs, hc] at hn
    exact List.dropWhile_eq_nil_iff.mp hd
  · intro h
    simp [List.dropWhile_eq_nil_iff.mpr h]

theorem trimChars_cons {c : Char} (h : isBlank c = false) (r : List Char) :
    trimChars (c :: r) = c :: dropEndWhile isBlank r := by
  rw [trimChars, List.dropWhile_cons_of_neg (by simp [h]), dropEndWhile_cons]
  split <;> simp_all

@[simp] theorem toList_trim (s : String) : (trim s).toList = trimChars s.toList := by
  simp [trim]

@[simp] theorem trim_trim (s : String) : trim (trim s) = trim s := by
  simp [trim]

theorem trim_eq_empty_iff {s : String} : trim s = "" ↔ isBlankText s := by
  rw [← String.toList_inj, toList_trim, String.toList_empty, trimChars_eq_nil_iff, isBlankText,
    List.all_eq_true]

end DocSite.Text
