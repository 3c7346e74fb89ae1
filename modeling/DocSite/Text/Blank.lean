namespace DocSite.Text

/-- The characters with the White_Space property. Zero-width marks such as U+200B and U+FEFF are
not among them. -/
def isBlank (c : Char) : Bool :=
  let n := c.toNat
  (0x09 ≤ n && n ≤ 0x0d) || n == 0x20 || n == 0x85 || n == 0xa0 || n == 0x1680 ||
    (0x2000 ≤ n && n ≤ 0x200a) || n == 0x2028 || n == 0x2029 || n == 0x202f || n == 0x205f ||
    n == 0x3000

def dropEndWhile (p : α → Bool) : List α → List α
  | [] => []
  | a :: r =>
    match dropEndWhile p r with
    | [] => if p a then [] else [a]
    | t => a :: t

def trimChars (s : List Char) : List Char :=
  dropEndWhile isBlank (s.dropWhile isBlank)

def trim (s : String) : String :=
  String.ofList (trimChars s.toList)

def isBlankText (s : String) : Bool :=
  s.toList.all isBlank

@[simp]
theorem dropEndWhile_nil (p : α → Bool) : dropEndWhile p [] = [] := rfl

theorem dropEndWhile_cons (p : α → Bool) (a : α) (r : List α) :
    dropEndWhile p (a :: r) =
      if dropEndWhile p r = [] then (if p a then [] else [a]) else a :: dropEndWhile p r := by
  rw [dropEndWhile]
  split <;> simp_all

@[simp]
theorem dropEndWhile_idem (p : α → Bool) (l : List α) :
    dropEndWhile p (dropEndWhile p l) = dropEndWhile p l := by
  induction l with
  | nil => rfl
  | cons a r ih =>
    rw [dropEndWhile_cons]
    split
    · by_cases h : p a <;> simp [h, dropEndWhile_cons]
    · rw [dropEndWhile_cons, ih]
      simp_all

end DocSite.Text
