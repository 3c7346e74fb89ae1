namespace DocSite.Text

def charsBefore : List Char → List Char → Bool
  | _, [] => false
  | [], _ :: _ => true
  | a :: r, b :: s => a.toNat < b.toNat || (a == b && charsBefore r s)

def before (a b : String) : Bool :=
  charsBefore a.toList b.toList

def insertBy (lt : α → α → Bool) (a : α) : List α → List α
  | [] => [a]
  | b :: r => if lt a b then a :: b :: r else b :: insertBy lt a r

def sortBy (lt : α → α → Bool) (l : List α) : List α :=
  l.foldl (fun sorted a => insertBy lt a sorted) []

def sortTexts (l : List String) : List String :=
  sortBy before l

@[simp]
theorem charsBefore_irrefl (s : List Char) : charsBefore s s = false := by
  induction s with
  | nil => rfl
  | cons c r ih => simp [charsBefore, ih]

theorem charsBefore_trans {a b c : List Char} (hab : charsBefore a b) (hbc : charsBefore b c) :
    charsBefore a c := by
  induction a generalizing b c with
  | nil =>
    cases b with
    | nil => simp [charsBefore] at hab
    | cons y s =>
      cases c with
      | nil => simp [charsBefore] at hbc
      | cons z t => rfl
  | cons x r ih =>
    cases b with
    | nil => simp [charsBefore] at hab
    | cons y s =>
      cases c with
      | nil => simp [charsBefore] at hbc
      | cons z t =>
        simp only [charsBefore, Bool.or_eq_true, decide_eq_true_eq, Bool.and_eq_true,
          beq_iff_eq] at *
        rcases hab with hxy | ⟨rfl, hrs⟩
        · rcases hbc with hyz | ⟨rfl, _⟩
          · exact .inl (by omega)
          · exact .inl hxy
        · rcases hbc with hyz | ⟨rfl, hst⟩
          · exact .inl hyz
          · exact .inr ⟨rfl, ih hrs hst⟩

theorem charsBefore_trichotomy (a b : List Char) :
    charsBefore a b ∨ a = b ∨ charsBefore b a := by
  induction a generalizing b with
  | nil => cases b <;> simp [charsBefore]
  | cons x r ih =>
    cases b with
    | nil => simp [charsBefore]
    | cons y s =>
      simp only [charsBefore, Bool.or_eq_true, decide_eq_true_eq, Bool.and_eq_true, beq_iff_eq,
        List.cons.injEq]
      rcases Nat.lt_trichotomy x.toNat y.toNat with h | h | h
      · exact .inl (.inl h)
      · have hxy := Char.toNat_inj.mp h
        rcases ih s with h' | h' | h'
        · exact .inl (.inr ⟨hxy, h'⟩)
        · exact .inr (.inl ⟨hxy, h'⟩)
        · exact .inr (.inr (.inr ⟨hxy.symm, h'⟩))
      · exact .inr (.inr (.inl h))

theorem before_trans {a b c : String} (hab : before a b) (hbc : before b c) : before a c :=
  charsBefore_trans hab hbc

theorem before_trichotomy (a b : String) : before a b ∨ a = b ∨ before b a := by
  rcases charsBefore_trichotomy a.toList b.toList with h | h | h
  · exact .inl h
  · exact .inr (.inl (String.toList_inj.mp h))
  · exact .inr (.inr h)

end DocSite.Text
