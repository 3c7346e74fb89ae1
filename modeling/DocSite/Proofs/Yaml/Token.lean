import DocSite.Proofs.Yaml.Style
import DocSite.Yaml.Token

namespace DocSite.Yaml

def Token.ofText (s : String) : Token := .scalar s (styleOf s == .plain)

namespace Scanner

def settle (s : Scanner) : Scanner :=
  let s := toNextToken (s.cursor.rest.length + 1) s
  s.unroll s.cursor.column

def act (s : Scanner) : Option Scanner :=
  match s.cursor.peek? with
  | none => s.finish
  | some ch =>
    if s.cursor.column = 0 ∧ ch = '%' then s.directive
    else if s.cursor.isDocumentMark '-' then s.documentMark .documentStart
    else if s.cursor.isDocumentMark '.' then s.documentMark .documentEnd
    else do
      let line := s.cursor.line
      let s ← s.contentToken ch
      some (if s.endsInEntry || (s.cursor.line ≠ line && s.cursor.column = 0) then s
        else s.skipLineComment)

theorem step_eq (s : Scanner) : s.step = s.settle.act := rfl

inductive Steps : Scanner → Scanner → Prop
  | refl (s : Scanner) : Steps s s
  | step {s s' s'' : Scanner} : s.step = some s' → s'.cursor.rest.length < s.cursor.rest.length →
    s'.tokens.head? ≠ some .streamEnd → Steps s' s'' → Steps s s''

theorem Steps.trans {a b c : Scanner} (h : Steps a b) (h' : Steps b c) : Steps a c := by
  induction h with
  | refl => exact h'
  | step hstep hlt hlast _ ih => exact .step hstep hlt hlast (ih h')

theorem scanFrom_of_steps {s s' : Scanner} (h : Steps s s') {fuel : Nat}
    (hfuel : s.cursor.rest.length < fuel) :
    ∃ k, s'.cursor.rest.length < k ∧ scanFrom fuel s = scanFrom k s' := by
  induction h generalizing fuel with
  | refl => exact ⟨fuel, hfuel, rfl⟩
  | step hstep hlt hlast _ ih =>
    cases fuel with
    | zero => simp at hfuel
    | succ fuel =>
      obtain ⟨k, hk, hscan⟩ := @ih fuel (by omega)
      exact ⟨k, hk, by rw [scanFrom, hstep]; simp [hlast, hscan]⟩

def Opens (rest : List Char) : Prop :=
  ∀ x ∈ rest.head?, isBlank x = false ∧ isBreak x = false ∧ x ≠ '#'

theorem Opens.endsGap {rest : List Char} (h : Opens rest) : EndsGap rest :=
  fun x hx => ⟨(h x hx).1, (h x hx).2.1⟩

variable {s : Scanner} {rest : List Char}

theorem takeWhile_spaces_append (h : EndsGap rest) {p : Char → Bool} (hspace : p ' ')
    (hblank : ∀ x, p x → isBlank x) (n : Nat) : (spaces n ++ rest).takeWhile p = spaces n := by
  have hrest : rest.takeWhile p = [] := by
    cases rest with
    | nil => rfl
    | cons x r =>
      have hx : p x = false := by
        cases hx : p x with
        | false => rfl
        | true => exact absurd (hblank x hx) (by simp [(h x rfl).1])
      simp [hx]
  rw [List.takeWhile_append_of_pos fun x hx => by simpa [List.eq_of_mem_replicate hx] using hspace,
    hrest, List.append_nil]

theorem toNextToken_inline (h : Opens rest) {n : Nat} (hc : s.cursor.rest = spaces n ++ rest)
    (fuel : Nat) : toNextToken (fuel + 1) s = s.moveTo (s.cursor.skip n) := by
  have htake : (s.cursor.rest.takeWhile
      fun ch => ch == ' ' || ((s.inFlow || !s.keyAllowed) && ch == '\t')) = spaces n := by
    rw [hc]
    refine takeWhile_spaces_append h.endsGap rfl (fun x hx => ?_) n
    simp only [Bool.or_eq_true, Bool.and_eq_true, beq_iff_eq] at hx
    rcases hx with rfl | ⟨_, rfl⟩ <;> rfl
  have hrest : (s.cursor.skip n).rest = rest := by
    have := Cursor.rest_skip hc
    rwa [length_spaces] at this
  rw [toNextToken]
  simp only [Cursor.takeWhile, htake, length_spaces, Cursor.peek?, hrest]
  cases hx : rest.head? with
  | none => simp [hrest, hx]
  | some x =>
    obtain ⟨_, hbreak, hcomment⟩ := h x hx
    simp [hcomment, hbreak, hrest, hx]

theorem toNextToken_newLine (h : Opens rest) {n : Nat} (houter : s.outer = [])
    (hc : s.cursor.rest = '\n' :: (spaces n ++ rest)) (fuel : Nat) :
    toNextToken (fuel + 2) s =
      { s with
        cursor := ⟨rest, s.cursor.line + 1, n, s.cursor.index + 1 + n⟩, keyAllowed := true } := by
  have hnext := nextLine_of_isPrintable (by decide) (by decide) hc
  have hfirst : toNextToken (fuel + 2) s =
      toNextToken (fuel + 1) { s with cursor := s.cursor.nextLine.2, keyAllowed := true } := by
    have hskip : s.cursor.skip 0 = s.cursor := rfl
    rw [toNextToken]
    simp [Cursor.takeWhile, hc, hskip, Cursor.peek?, inFlow, houter, isBreak]
  rw [hfirst, hnext, toNextToken_inline h rfl]
  simp [moveTo, Cursor.skip, spaces]

/-- The place of a token: what follows, the column, the tokens before it, the open containers, and
whether a key may start there. A key that was possible earlier can be given up. -/
structure Ready (a : Scanner) (text : List Char) (col : Nat) (before : List Token)
    (around : List Nat) (allowed : Bool) : Prop where
  rest : a.cursor.rest = text
  column : a.cursor.column = col
  tokens : a.tokens = before
  indents : a.indents = around
  outer : a.outer = []
  key : ∀ k ∈ a.key, k.required = false ∧ k.line < a.cursor.line
  keyAllowed : a.keyAllowed = allowed

structure At (s : Scanner) (text : List Char) (col : Nat) (before : List Token) (around : List Nat)
    (allowed : Bool) : Prop where
  ready : s.settle.Ready text col before around allowed
  left : text.length ≤ s.cursor.rest.length

def closed (column : Nat) (indents : List Nat) (tokens : List Token) : List Token :=
  closeBlocks (indents.takeWhile (column < ·)) tokens

def kept (column : Nat) (indents : List Nat) : List Nat := indents.dropWhile (column < ·)

theorem closed_eq_self {column : Nat} {indents : List Nat} (h : ∀ i ∈ indents.head?, i ≤ column)
    (tokens : List Token) : closed column indents tokens = tokens := by
  cases indents with
  | nil => rfl
  | cons i I => simp [closed, closeBlocks, Nat.not_lt.mpr (h i rfl)]

theorem kept_eq_self {column : Nat} {indents : List Nat} (h : ∀ i ∈ indents.head?, i ≤ column) :
    kept column indents = indents := by
  cases indents with
  | nil => rfl
  | cons i I => simp [kept, Nat.not_lt.mpr (h i rfl)]

theorem At.of_settle {a : Scanner} (h : s.settle = a) (houter : a.outer = [])
    (hkey : ∀ k ∈ a.key, k.required = false ∧ k.line < a.cursor.line)
    (hleft : a.cursor.rest.length ≤ s.cursor.rest.length) :
    s.At a.cursor.rest a.cursor.column a.tokens a.indents a.keyAllowed := by
  subst h
  exact ⟨⟨rfl, rfl, rfl, rfl, houter, hkey, rfl⟩, hleft⟩

theorem unroll_eq (houter : s.outer = []) (column : Nat) :
    s.unroll column =
      { s with tokens := closed column s.indents s.tokens, indents := kept column s.indents } := by
  rw [unroll, inFlow, houter]
  rfl

theorem at_inline (houter : s.outer = [])
    (hkey : ∀ k ∈ s.key, k.required = false ∧ k.line < s.cursor.line) (h : Opens rest) {n : Nat}
    (hc : s.cursor.rest = spaces n ++ rest) :
    s.At rest (s.cursor.column + n) (closed (s.cursor.column + n) s.indents s.tokens)
      (kept (s.cursor.column + n) s.indents) s.keyAllowed := by
  have hskip : s.cursor.skip n =
      ⟨rest, s.cursor.line, s.cursor.column + n, s.cursor.index + n⟩ := by
    have hrest := Cursor.rest_skip hc
    rw [length_spaces] at hrest
    rw [← hrest]
    rfl
  have hsettle : s.settle = (s.moveTo (s.cursor.skip n)).unroll (s.cursor.column + n) := by
    rw [settle, toNextToken_inline h hc]
    rfl
  rw [hskip, unroll_eq (by exact houter)] at hsettle
  exact At.of_settle hsettle houter hkey (by rw [hc, List.length_append]; exact Nat.le_add_left _ _)

theorem at_newLine (houter : s.outer = [])
    (hkey : ∀ k ∈ s.key, k.required = false ∧ k.line ≤ s.cursor.line) (h : Opens rest) {n : Nat}
    (hc : s.cursor.rest = '\n' :: (spaces n ++ rest)) :
    s.At rest n (closed n s.indents s.tokens) (kept n s.indents) true := by
  have hfuel : s.cursor.rest.length + 1 = (spaces n ++ rest).length + 2 := by rw [hc]; rfl
  have hsettle : s.settle = unroll { s with
      cursor := ⟨rest, s.cursor.line + 1, n, s.cursor.index + 1 + n⟩, keyAllowed := true } n := by
    rw [settle, hfuel, toNextToken_newLine h houter hc]
  rw [unroll_eq (by exact houter)] at hsettle
  refine At.of_settle hsettle houter (fun k hk =>
    ⟨(hkey k hk).1, Nat.lt_succ_of_le (hkey k hk).2⟩) ?_
  rw [hc, List.length_cons, List.length_append]
  exact Nat.le_succ_of_le (Nat.le_add_left _ _)

def NoComment (rest : List Char) : Prop := (rest.dropWhile isBlank).head? ≠ some '#'

theorem skipLineComment_eq (h : NoComment s.cursor.rest) : s.skipLineComment = s := by
  have hdrop : s.cursor.rest.drop (s.cursor.rest.takeWhile isBlank).length =
      s.cursor.rest.dropWhile isBlank := by
    induction s.cursor.rest with
    | nil => rfl
    | cons x r ih => cases hx : isBlank x <;> simp [hx, ih]
  rw [NoComment, ← hdrop] at h
  exact if_neg h

def Reads (a s' : Scanner) : Prop :=
  a.act = some s' ∧ s'.cursor.rest.length < a.cursor.rest.length ∧
    s'.tokens.head? ≠ some .streamEnd

variable {text : List Char} {col : Nat} {before : List Token} {around : List Nat} {allowed : Bool}

theorem Reads.steps {s' : Scanner} (h : Reads s s') (hsettle : s.settle = s) : Steps s s' :=
  .step (by rw [step_eq, hsettle, h.1]) h.2.1 h.2.2 (.refl s')

theorem At.steps {s' : Scanner} (h : s.At text col before around allowed)
    (hs' : Reads s.settle s') :
    Steps s s' := by
  have hlt := hs'.2.1
  rw [h.ready.rest] at hlt
  exact .step (s.step_eq.trans hs'.1) (Nat.lt_of_lt_of_le hlt h.left) hs'.2.2 (.refl s')

theorem act_content {x : Char} {r : List Char} (hc : s.cursor.rest = x :: r)
    (hboundary : s.cursor.isDocumentBoundary = false) (hdirective : s.cursor.column = 0 → x ≠ '%')
    {s' : Scanner} (htoken : s.contentToken x = some s') (hcomment : NoComment s'.cursor.rest) :
    s.act = some s' := by
  obtain ⟨hstart, hend⟩ := Bool.or_eq_false_iff.mp hboundary
  have hpercent : ¬(s.cursor.column = 0 ∧ x = '%') := fun h => hdirective h.1 h.2
  simp [act, Cursor.peek?, hc, hpercent, hstart, hend, htoken, skipLineComment_eq hcomment]

theorem noComment_of_opens (h : Opens rest) (n : Nat) : NoComment (spaces n ++ rest) := by
  have hrest : rest.dropWhile isBlank = rest := by
    cases rest with
    | nil => rfl
    | cons x r => simp [(h x rfl).1]
  rw [NoComment, List.dropWhile_append_of_pos fun x hx => by
    rw [List.eq_of_mem_replicate hx]
    rfl, hrest]
  intro hhead
  exact (h '#' hhead).2.2 rfl

theorem noComment_newLine (rest : List Char) : NoComment ('\n' :: rest) := by
  simp [NoComment, isBlank]

section Keys

def savedKey (a : Scanner) : Option KeyPlace :=
  if a.keyAllowed then
    some ⟨a.tokens.length, a.cursor.line, a.cursor.column, a.cursor.index,
      a.indents.head? == some a.cursor.column⟩
  else a.key

variable {a : Scanner}

theorem dropKey_eq (h : ∀ k ∈ a.key, k.required = false) :
    a.dropKey = some { a with key := none } := by
  rw [dropKey]
  split
  case h_1 k hk => simp [h k hk]
  case h_2 hk => rw [← hk]

theorem Ready.dropKey (h : a.Ready text col before around allowed) :
    a.dropKey = some { a with key := none } :=
  dropKey_eq fun k hk => (h.key k hk).1

theorem Ready.saveKey (h : a.Ready text col before around allowed) :
    a.saveKey = some { a with key := a.savedKey } := by
  by_cases hallowed : a.keyAllowed
  · simp [Scanner.saveKey, Scanner.savedKey, hallowed, h.dropKey, inFlow, h.outer]
  · rw [Scanner.saveKey, Scanner.savedKey, if_neg hallowed, if_neg hallowed]

theorem Ready.savedKey (h : a.Ready text col before around allowed)
    (hcol : around.head? ≠ some col) :
    ∀ k ∈ a.savedKey, k.required = false ∧ k.line ≤ a.cursor.line := by
  intro k hk
  rw [Scanner.savedKey] at hk
  split at hk
  case isTrue =>
    obtain rfl := Option.some.inj hk
    simpa [h.indents, h.column] using hcol
  case isFalse => exact ⟨(h.key k hk).1, Nat.le_of_lt (h.key k hk).2⟩

end Keys

section Scalars

variable {a : Scanner} {s : List Char}

theorem contentToken_plain (h : PlainText s) (houter : a.outer = []) {x : Char} {r t : List Char}
    (hs : s = x :: r) (hc : a.cursor.rest = s ++ t) : a.contentToken x = a.plainScalar := by
  obtain ⟨hindicator, hnext⟩ := h.start x r hs
  have hgap : isGapChar x = false := by
    obtain ⟨y, t, hy, hgap⟩ := h.first
    rw [hs] at hy
    rwa [(List.cons.inj hy).1]
  have hnext : (x = '-' ∨ x = '?' ∨ x = ':') → a.cursor.isGapAt 1 = false := by
    intro hx
    obtain ⟨y, t, hr, hblank⟩ := hnext (by tauto)
    have hbreak := (h.chars y (by simp [hs, hr])).2
    simp [Cursor.isGapAt, hc, hs, hr, hblank, hbreak]
  obtain ⟨hblank, hbreak⟩ := Bool.or_eq_false_iff.mp hgap
  have hplain : isReserved x = false ∨ x = '-' ∨ x = '?' ∨ x = ':' := by
    simp [isIndicator] at hindicator
    simp [isReserved, hblank, hbreak, hindicator]
    tauto
  unfold contentToken
  split
  case h_11 =>
    have hblock : x ≠ '|' ∧ x ≠ '>' := by
      constructor
      · rintro rfl
        exact absurd hindicator (by decide)
      · rintro rfl
        exact absurd hindicator (by decide)
    have hgapNext : ∀ mark, mark = '-' ∨ mark = '?' ∨ mark = ':' →
        ¬(x = mark ∧ (a.inFlow = true ∨ a.cursor.isGapAt 1 = true)) := by
      rintro mark hmark ⟨rfl, hmark'⟩
      simp [hnext hmark, inFlow, houter] at hmark'
    rw [if_neg fun h => hgapNext '-' (by simp) ⟨h.1, .inr h.2⟩, if_neg (hgapNext '?' (by simp)),
      if_neg (hgapNext ':' (by simp)), if_neg fun h => hblock.1 h.1, if_neg fun h => hblock.2 h.1,
      if_pos]
    simpa [inFlow, houter] using hplain
  all_goals exact absurd hindicator (by decide)

theorem Ready.reads_plain {t : List Char} (h : a.Ready (s ++ t) col before around allowed)
    (hs : PlainText s) (hboundary : a.cursor.isDocumentBoundary = false) {broken : Bool}
    {c : Cursor} (hread : readPlain false a.least a.cursor = some (s, broken, c))
    (hlt : c.rest.length < (s ++ t).length) (hcomment : NoComment c.rest) :
    Reads a ⟨c, .scalar (String.ofList s) true :: before, around, a.savedKey, [], broken⟩ := by
  obtain ⟨x, r, hx, _⟩ := hs.first
  have hc : a.cursor.rest = x :: (r ++ t) := by rw [h.rest, hx, List.cons_append]
  have hpercent : x ≠ '%' := by
    rintro rfl
    exact absurd (hs.start '%' r hx).1 (by decide)
  refine ⟨act_content hc hboundary (fun _ => hpercent) ?_ hcomment, by rwa [h.rest], by simp⟩
  rw [contentToken_plain hs h.outer hx h.rest, plainScalar, h.saveKey]
  have hflow : inFlow { a with key := a.savedKey } = false := by simp [inFlow, h.outer]
  have hread : readPlain false (least { a with key := a.savedKey }) a.cursor =
    some (s, broken, c) := hread
  simp only [Option.bind_eq_bind, Option.bind_some, hflow, hread]
  simp only [moveTo, emit, h.tokens, h.indents, h.outer]

theorem Ready.plain_line {i m : Nat} {I : List Nat}
    (h : a.Ready (s ++ '\n' :: (spaces m ++ rest)) col before (i :: I) allowed) (hs : PlainText s)
    (hcol : i < col) (hm : m ≤ i) (hrest : Opens rest) :
    ∃ s', Reads a s' ∧ s'.At rest m (closed m (i :: I) (.scalar (String.ofList s) true :: before))
      (kept m (i :: I)) true := by
  have hboundary := Cursor.isDocumentBoundary_of_column (c := a.cursor) (by rw [h.column]; omega)
  have hleast : a.least = i + 1 := by rw [least, h.indents]
  obtain ⟨c, hread, hpast, hcolumn, hline⟩ := readPlain_line hs.toPlainWords hboundary
    (show i + 1 ≤ a.cursor.column + 1 by rw [h.column]; omega) hrest.endsGap (Nat.lt_succ_of_le hm)
    h.rest
  have hc : c.rest = rest := hpast.rest_eq (by simp [h.rest])
  rw [← hleast] at hread
  refine ⟨_, h.reads_plain hs hboundary hread (by simp [hc]; omega) ?_, ?_⟩
  · rw [hc]
    exact noComment_of_opens hrest 0
  · have hsaved := h.savedKey (by simp; omega)
    have := at_inline
      (s := ⟨c, .scalar (String.ofList s) true :: before, i :: I, a.savedKey, [], true⟩) rfl
      (fun k hk => ⟨(hsaved k hk).1, Nat.lt_of_le_of_lt (hsaved k hk).2 hline⟩) hrest (n := 0) hc
    rwa [Nat.add_zero, hcolumn] at this

theorem contentToken_sign (quote : Quote) :
    a.contentToken quote.sign = a.keyPart fun c =>
      (readQuoted quote c).map fun (text, c) => (.scalar (String.ofList text) false, c) := by
  cases quote <;> rfl

theorem Ready.reads_quoted {quote : Quote} {unit : Char → List Char} {body t : List Char}
    (h : a.Ready (quote.sign :: body ++ quote.sign :: t) col before around allowed)
    (hs : Quoted quote unit s body) (ht : t.head? ≠ some '\'') (hcomment : NoComment t) :
    ∃ c, a.cursor.Past (quote.sign :: body ++ [quote.sign]) c ∧
      Reads a ⟨c, .scalar (String.ofList s) false :: before, around, a.savedKey, [], false⟩ := by
  obtain ⟨c, hread, hpast⟩ := readQuoted_of_quoted hs (endsWord_sign quote ht) h.rest
  have hc : c.rest = t := hpast.rest_eq (by simp [h.rest])
  have hfirst : quote.sign ≠ '-' ∧ quote.sign ≠ '.' ∧ quote.sign ≠ '%' := by cases quote <;> decide
  refine ⟨c, hpast, act_content h.rest ?_ (fun _ => hfirst.2.2) ?_ (by rwa [hc]), ?_, by simp⟩
  · exact Cursor.isDocumentBoundary_of_rest h.rest hfirst.1 hfirst.2.1
  · rw [contentToken_sign, keyPart, h.saveKey]
    simp [hread, moveTo, emit, h.tokens, h.indents, h.outer]
  · simp [h.rest, hc]
    omega

theorem Ready.quoted_line {quote : Quote} {unit : Char → List Char} {body : List Char} {m : Nat}
    (h : a.Ready (quote.sign :: body ++ quote.sign :: '\n' :: (spaces m ++ rest)) col before around
      allowed)
    (hs : Quoted quote unit s body) (hcol : around.head? ≠ some col) (hrest : Opens rest) :
    ∃ s', Reads a s' ∧ s'.At rest m (closed m around (.scalar (String.ofList s) false :: before))
      (kept m around) true := by
  obtain ⟨c, hpast, hreads⟩ := h.reads_quoted hs (by simp) (noComment_newLine _)
  have hc : c.rest = '\n' :: (spaces m ++ rest) := hpast.rest_eq (by simp [h.rest])
  have hsaved := h.savedKey hcol
  refine ⟨_, hreads, at_newLine rfl (fun k hk => ?_) hrest hc⟩
  exact ⟨(hsaved k hk).1, Nat.le_trans (hsaved k hk).2 hpast.line⟩

theorem Ready.literal_line {i m : Nat} {I : List Nat}
    (h : a.Ready (writeLiteral (i + 2) s ++ lineEnd (writeLiteral (i + 2) s) ++ (spaces m ++ rest))
      col before (i :: I) allowed)
    (hprint : ∀ x ∈ s, isBreak x → isPrintable x)
    (hfirst : ∃ x r, s = x :: r ∧ isBreak x = false ∧ x ≠ '\t') (hm : m ≤ i) (hrest : Opens rest) :
    ∃ s', Reads a s' ∧ s'.At rest m (closed m (i :: I) (.scalar (String.ofList s) false :: before))
      (kept m (i :: I)) true := by
  have hleast : a.least = i + 1 := by rw [least, h.indents]
  obtain ⟨c, hread, hpast, hcolumn, _⟩ := readBlock_writeLiteral hprint hfirst
    (show m < i + 1 by omega) hrest.endsGap h.rest
  have hc : c.rest = rest := hpast.rest_eq (by simp [h.rest])
  rw [← hleast] at hread
  refine ⟨⟨c, .scalar (String.ofList s) false :: before, i :: I, none, [], true⟩,
    ⟨?_, ?_, by simp⟩, ?_⟩
  · have hbar : a.cursor.rest = '|' :: a.cursor.rest.tail := by
      rw [h.rest]
      rfl
    refine act_content hbar (Cursor.isDocumentBoundary_of_rest hbar (by decide) (by decide))
      (fun _ => by decide) ?_ (by rw [hc]; exact noComment_of_opens hrest 0)
    have hflow : a.inFlow = false := by simp [inFlow, h.outer]
    have htoken : a.contentToken '|' = a.blockScalar true := by simp [contentToken, hflow]
    have hread : readBlock true (least { a with key := none }) a.cursor = some (s, c) := hread
    rw [htoken, blockScalar, h.dropKey]
    simp only [Option.bind_eq_bind, Option.bind_some, hread]
    simp only [moveTo, emit, h.tokens, h.indents, h.outer]
  · simp [h.rest, hc, writeLiteral]
    omega
  · have := at_inline (s := ⟨c, .scalar (String.ofList s) false :: before, i :: I, none, [], true⟩)
      rfl (by simp) hrest (n := 0) hc
    rwa [Nat.add_zero, hcolumn] at this

theorem Ready.text_line {i m : Nat} {I : List Nat} {s : String}
    (h : a.Ready (writeText (i + 2) s ++ lineEnd (writeText (i + 2) s) ++ (spaces m ++ rest))
      col before (i :: I) allowed)
    (hs : keepsText s) (hcol : i < col) (hm : m ≤ i) (hrest : Opens rest) :
    ∃ s', Reads a s' ∧
      s'.At rest m (closed m (i :: I) (.ofText s :: before)) (kept m (i :: I)) true := by
  rcases writeText_cases (show i + 2 ≠ 0 by omega) s with
    ⟨hstyle, hwrite, hplain, _⟩ | ⟨hstyle, quote, unit, body, hwrite, hquoted⟩ |
    ⟨hstyle, hwrite, hprint⟩
  · rw [hwrite, hplain.lineEnd, List.append_assoc] at h
    have htoken : .ofText s = Token.scalar s true := by rw [Token.ofText, hstyle]; rfl
    have := h.plain_line hplain hcol hm hrest
    rwa [String.ofList_toList, ← htoken] at this
  · rw [hwrite, lineEnd_sign, List.append_assoc, List.append_assoc] at h
    have htoken : .ofText s = Token.scalar s false := by simp [Token.ofText, hstyle]
    have := h.quoted_line hquoted (by simp; omega) hrest
    rwa [String.ofList_toList, ← htoken] at this
  · have hfirst : ∃ x r, s.toList = x :: r ∧ isBreak x = false ∧ x ≠ '\t' := by
      rw [keepsText, hstyle, bne_self_eq_false, Bool.false_or] at hs
      cases hchars : s.toList with
      | nil => simp [hchars] at hs
      | cons x r => exact ⟨x, r, rfl, by simpa [hchars] using hs⟩
    have htoken : .ofText s = Token.scalar s false := by rw [Token.ofText, hstyle]; rfl
    rw [hwrite] at h
    have := h.literal_line hprint hfirst hm hrest
    rwa [String.ofList_toList, ← htoken] at this

end Scalars

section Signs

structure After (s : Scanner) (text : List Char) (col : Nat) (before : List Token)
    (around : List Nat) : Prop where
  rest : s.cursor.rest = text
  column : col < s.cursor.column
  tokens : s.tokens = before
  indents : s.indents = around
  outer : s.outer = []
  key : s.key = none

def opened (col : Nat) (t : Token) (indents : List Nat) (tokens : List Token) : List Token :=
  if indents.head? = some col then tokens else t :: tokens

def within (col : Nat) (indents : List Nat) : List Nat :=
  if indents.head? = some col then indents else col :: indents

def CanOpen (col : Nat) (indents : List Nat) : Prop :=
  indents.head? = some col ∨ (∀ i ∈ indents.head?, i < col) ∧ indents.length < depthLimit

theorem roll_eq (houter : s.outer = []) (h : CanOpen col s.indents) {front tokens : List Token}
    (htokens : s.tokens = front ++ tokens) (t : Token) :
    s.roll col front.length t = some { s with
      indents := within col s.indents
      tokens := front ++ opened col t s.indents tokens } := by
  have hflow : s.inFlow = false := by simp [inFlow, houter]
  rcases h with h | ⟨h, hdepth⟩
  · have hleast : col < s.least := by
      obtain ⟨_, hindents⟩ := List.head?_eq_some_iff.mp h
      rw [least, hindents]
      exact Nat.lt_succ_self col
    simp [roll, within, opened, h, hleast, ← htokens]
  · have hne : s.indents.head? ≠ some col := fun hhead => Nat.lt_irrefl col (h col hhead)
    have hleast : ¬col < s.least := by
      rw [least]
      split
      case h_1 => simp
      case h_2 i _ hindents => exact Nat.not_lt.mpr (h i (by simp [hindents]))
    simp [roll, within, opened, hflow, hleast, hne, Nat.not_le.mpr hdepth, htokens]

theorem settle_eq_self (houter : s.outer = []) (h : Opens s.cursor.rest)
    (hindents : ∀ i ∈ s.indents.head?, i ≤ s.cursor.column) : s.settle = s := by
  have hskip : s.moveTo (s.cursor.skip 0) = s := rfl
  rw [settle, toNextToken_inline h (n := 0) rfl, hskip, unroll_eq houter, closed_eq_self hindents,
    kept_eq_self hindents]

theorem head?_le_of_canOpen {indents : List Nat} (h : CanOpen col indents) :
    ∀ i ∈ indents.head?, i ≤ col := by
  intro i hi
  rcases h with h | ⟨h, _⟩
  · rw [Option.mem_def.mp hi] at h
    exact Nat.le_of_eq (Option.some.inj h)
  · exact Nat.le_of_lt (h i hi)

variable {a : Scanner} {x : Char} {t : List Char}

theorem Ready.reads_key {w : Nat} {key : String}
    (h : a.Ready (writeText w key ++ ':' :: x :: t) col before around allowed) (hw : w ≠ 0)
    (hkey : isSimpleKey key) (hx : isGapChar x) (haround : ∀ i ∈ around.head?, i ≤ col) :
    Reads a ⟨a.cursor.skip (writeText w key).length, .ofText key :: before, around, a.savedKey, [],
      false⟩ := by
  have hcolon : NoComment (':' :: x :: t) := by simp [NoComment, isBlank]
  have hline : isMultiline key.toList = false := by
    rw [isSimpleKey, Bool.and_eq_true, Bool.not_eq_true'] at hkey
    exact hkey.1
  have hwritten := isMultiline_writeText (n := w) hline
  rcases writeText_cases hw key with
    ⟨hstyle, hwrite, hplain, _⟩ | ⟨hstyle, quote, unit, body, hwrite, hquoted⟩ | ⟨hstyle, _⟩
  · have htoken : .ofText key = Token.scalar key true := by rw [Token.ofText, hstyle]; rfl
    rw [hwrite] at h ⊢
    have hboundary := hplain.isDocumentBoundary (by decide) h.rest
    have hleast : a.least ≤ a.cursor.column + 1 := by
      rw [least, h.indents, h.column]
      cases around with
      | nil => simp
      | cons i I => exact Nat.succ_le_succ (haround i rfl)
    have hread := readPlain_key hplain.toPlainWords hboundary hleast hx h.rest
    have hrest := Cursor.rest_skip h.rest
    have hne : key.toList ≠ [] := by
      obtain ⟨y, r, hy, _⟩ := hplain.first
      simp [hy]
    have := h.reads_plain hplain hboundary hread
      (by
        rw [hrest, List.length_append]
        exact Nat.lt_add_of_pos_left (List.length_pos_of_ne_nil hne))
      (by rwa [hrest])
    rwa [String.ofList_toList, ← htoken] at this
  · have htoken : .ofText key = Token.scalar key false := by simp [Token.ofText, hstyle]
    rw [hwrite] at h hwritten ⊢
    rw [List.append_assoc] at h
    obtain ⟨c, hpast, hreads⟩ := h.reads_quoted hquoted (by simp) hcolon
    rw [← hpast.eq_skip hwritten, htoken]
    rwa [String.ofList_toList] at hreads
  · exact absurd (List.any_eq_false.mp hline '\n' (newLine_mem_of_literal hstyle)) (by decide)

theorem isGapAt_one {c : Cursor} {mark : Char} (hc : c.rest = mark :: x :: t) (hx : isGapChar x) :
    c.isGapAt 1 := by
  rw [Cursor.isGapAt, hc]
  exact hx

theorem reads_sign {s' : Scanner} {mark : Char} (hc : a.cursor.rest = mark :: t)
    (hboundary : a.cursor.isDocumentBoundary = false) (hmark : mark ≠ '%')
    (htoken : a.contentToken mark = some s') (hcursor : s'.cursor = a.cursor.next)
    (hlast : s'.tokens.head? ≠ some .streamEnd) (ht : NoComment t) : Reads a s' := by
  have hrest : s'.cursor.rest = t := by rw [hcursor]; simp [Cursor.next, Cursor.skip, hc]
  refine ⟨act_content hc hboundary (fun _ => hmark) htoken (by rwa [hrest]), ?_, hlast⟩
  rw [hrest, hc]
  exact Nat.lt_succ_self _

theorem contentToken_colon (hc : a.cursor.rest = ':' :: x :: t) (hx : isGapChar x) :
    a.contentToken ':' = a.colon := by
  have hgap := isGapAt_one hc hx
  simp [contentToken, hgap]

theorem colon_eq {c : Cursor} {k : KeyPlace} (hline : k.line = c.line)
    (hindex : c.index ≤ k.index + 1024) (hposition : k.position = before.length)
    (haround : CanOpen k.column around) (text : Token) :
    colon ⟨c, text :: before, around, some k, [], false⟩ = some ⟨c.next,
      .value :: text :: .key :: opened k.column .mappingStart around before, within k.column around,
      none, [], false⟩ := by
  have hlive : liveKey ⟨c, text :: before, around, some k, [], false⟩ = some (some k) := by
    simp [liveKey, hline, hindex]
  have hback : (text :: before).length - k.position = 1 := by
    rw [hposition, List.length_cons]
    omega
  have hroll := roll_eq (s := ⟨c, text :: .key :: before, around, none, [], false⟩) rfl haround
    (show _ = [text, .key] ++ before from rfl) .mappingStart
  rw [colon, hlive]
  simp only [Option.bind_eq_bind, Option.bind_some, hback, List.take_succ_cons, List.take_zero,
    List.drop_succ_cons, List.drop_zero, List.cons_append, List.nil_append]
  exact (congrArg
    (·.bind fun s => some (sign { s with keyAllowed := false } .value)) hroll).trans rfl

theorem colon_steps {c : Cursor} {k : KeyPlace} (hc : c.rest = ':' :: x :: t) (hx : isGapChar x)
    (ht : NoComment (x :: t)) (hcolumn : k.column < c.column) (hline : k.line = c.line)
    (hindex : c.index ≤ k.index + 1024) (hposition : k.position = before.length)
    (haround : CanOpen k.column around) (text : Token) :
    ∃ s', Steps ⟨c, text :: before, around, some k, [], false⟩ s' ∧ s'.After (x :: t) k.column
      (.value :: text :: .key :: opened k.column .mappingStart around before)
      (within k.column around) := by
  have hcolon := colon_eq hline hindex hposition haround text
  rw [← contentToken_colon hc hx] at hcolon
  refine ⟨_, (reads_sign hc ?_ (by decide) hcolon rfl (by simp) ht).steps ?_, ?_⟩
  · exact Cursor.isDocumentBoundary_of_rest hc (by decide) (by decide)
  · refine settle_eq_self rfl ?_ fun i hi => ?_
    · rw [hc]
      simp [Opens, isBlank, isBreak]
    · exact Nat.le_of_lt (Nat.lt_of_le_of_lt (head?_le_of_canOpen haround i hi) hcolumn)
  · refine ⟨?_, Nat.lt_succ_of_lt hcolumn, rfl, rfl, rfl, rfl⟩
    simp [Cursor.next, Cursor.skip, hc]

theorem At.simpleKey {w : Nat} {key : String}
    (h : s.At (writeText w key ++ ':' :: x :: t) col before around true) (hw : w ≠ 0)
    (hkey : isSimpleKey key) (hx : isGapChar x) (ht : NoComment (x :: t))
    (haround : CanOpen col around) :
    ∃ s', Steps s s' ∧ s'.After (x :: t) col
      (.value :: .ofText key :: .key :: opened col .mappingStart around before)
        (within col around) := by
  have hsaved : s.settle.savedKey = some ⟨before.length, s.settle.cursor.line, col,
      s.settle.cursor.index, around.head? == some col⟩ := by
    rw [savedKey, h.ready.keyAllowed, h.ready.tokens, h.ready.indents, h.ready.column]
    rfl
  have hreads := h.ready.reads_key hw hkey hx (head?_le_of_canOpen haround)
  rw [hsaved] at hreads
  have hpos : 0 < (writeText w key).length := by
    obtain ⟨y, r, hy, _⟩ := exists_writeText_eq_cons w key
    simp [hy]
  have hcolumn : col < (s.settle.cursor.skip (writeText w key).length).column := by
    rw [Cursor.skip, h.ready.column]
    exact Nat.lt_add_of_pos_right hpos
  obtain ⟨s', hsteps, hafter⟩ := colon_steps
    (k := ⟨before.length, s.settle.cursor.line, col, s.settle.cursor.index,
      around.head? == some col⟩)
    (Cursor.rest_skip h.ready.rest) hx ht hcolumn rfl
    (Nat.add_le_add_left (length_writeText_le hkey) _) rfl haround (.ofText key)
  exact ⟨s', (h.steps hreads).trans hsteps, hafter⟩

@[simp] theorem opened_cons_self (col : Nat) (t : Token) (indents : List Nat)
    (tokens : List Token) :
    opened col t (col :: indents) tokens = tokens := by simp [opened]

@[simp] theorem within_cons_self (col : Nat) (indents : List Nat) :
    within col (col :: indents) = col :: indents := by simp [within]

theorem exists_within_eq_cons (col : Nat) (indents : List Nat) :
    ∃ r, within col indents = col :: r := by
  rw [within]
  split
  case isTrue h => exact List.head?_eq_some_iff.mp h
  case isFalse => exact ⟨indents, rfl⟩

theorem Ready.roll_dropKey (h : a.Ready text col before around true) (haround : CanOpen col around)
    (container : Token) :
    (a.roll a.cursor.column 0 container).bind Scanner.dropKey =
      some ⟨a.cursor, opened col container around before, within col around, none, [], true⟩ := by
  rw [h.column, ← h.indents] at *
  have hroll := roll_eq h.outer haround (show a.tokens = [] ++ before from h.tokens) container
  rw [List.length_nil] at hroll
  rw [hroll, Option.bind_some, dropKey_eq (by exact fun k hk => (h.key k hk).1)]
  simp [h.outer, h.keyAllowed]

theorem At.opener {mark : Char} {container sign : Token} {n : Nat}
    (h : s.At (mark :: ' ' :: t) n before around true) (ht : Opens t)
    (hmark : mark ≠ '%' ∧ sign ≠ .streamEnd)
    (htoken : s.settle.contentToken mark = some ⟨s.settle.cursor.next,
      sign :: opened n container around before, within n around, none, [], true⟩) :
    ∃ s', Steps s s' ∧
      s'.At t (n + 2) (sign :: opened n container around before) (within n around) true := by
  have hboundary : s.settle.cursor.isDocumentBoundary = false := by
    simp [Cursor.isDocumentBoundary, Cursor.isDocumentMark, h.ready.rest, List.isPrefixOf]
  have hwithin : ∀ i ∈ (within n around).head?, i ≤ n + 2 := by
    obtain ⟨r, hr⟩ := exists_within_eq_cons n around
    simp [hr]
  have hnext : s.settle.cursor.next.rest = spaces 1 ++ t := by
    simp [Cursor.next, Cursor.skip, h.ready.rest, spaces]
  have hcolumn : s.settle.cursor.next.column + 1 = n + 2 := by
    simp [Cursor.next, Cursor.skip, h.ready.column]
  refine ⟨_, h.steps (reads_sign h.ready.rest hboundary hmark.1 htoken rfl ?_
    (noComment_of_opens ht 1)), ?_⟩
  · simpa using hmark.2
  · have := at_inline (s := ⟨s.settle.cursor.next, sign :: opened n container around before,
      within n around, none, [], true⟩) rfl (by simp) ht (n := 1) hnext
    rwa [hcolumn, closed_eq_self hwithin, kept_eq_self hwithin] at this

theorem At.dash {n : Nat} (h : s.At ('-' :: ' ' :: t) n before around true) (ht : Opens t)
    (haround : CanOpen n around) :
    ∃ s', Steps s s' ∧
      s'.At t (n + 2) (.entry :: opened n .sequenceStart around before) (within n around) true := by
  have hgap := isGapAt_one h.ready.rest (by decide)
  have htoken : s.settle.contentToken '-' =
      ((s.settle.roll s.settle.cursor.column 0 .sequenceStart).bind Scanner.dropKey).bind
        fun s => some (Scanner.sign { s with keyAllowed := true } .entry) := by
    simp [contentToken, hgap, blockEntry, inFlow, h.ready.outer, h.ready.keyAllowed,
      Option.bind_assoc]
  rw [h.ready.roll_dropKey haround] at htoken
  exact h.opener ht (by decide) htoken

theorem At.mark {n : Nat} (h : s.At ('?' :: ' ' :: t) n before around true) (ht : Opens t)
    (haround : CanOpen n around) :
    ∃ s', Steps s s' ∧
      s'.At t (n + 2) (.key :: opened n .mappingStart around before) (within n around) true := by
  have hgap := isGapAt_one h.ready.rest (by decide)
  have htoken : s.settle.contentToken '?' =
      ((s.settle.roll s.settle.cursor.column 0 .mappingStart).bind Scanner.dropKey).bind
        fun s => some (Scanner.sign { s with keyAllowed := !s.inFlow } .key) := by
    simp [contentToken, hgap, markedKey, inFlow, h.ready.outer, h.ready.keyAllowed,
      Option.bind_assoc]
  rw [h.ready.roll_dropKey haround] at htoken
  exact h.opener ht (by decide) htoken

theorem At.markedColon {n : Nat} {I : List Nat} (h : s.At (':' :: x :: t) n before (n :: I) true)
    (hx : isGapChar x) (ht : NoComment (x :: t)) :
    ∃ s', Steps s s' ∧ s'.After (x :: t) n (.value :: before) (n :: I) := by
  have hlive : s.settle.liveKey = some none := by
    rw [liveKey]
    split
    case h_1 => rfl
    case h_2 k hk => simp [h.ready.key k hk]
  have hroll : roll { s.settle with key := none } s.settle.cursor.column 0 .mappingStart =
      some { s.settle with key := none } := by
    simp [roll, least, h.ready.indents, h.ready.column]
  have htoken : s.settle.contentToken ':' =
      some ⟨s.settle.cursor.next, .value :: before, n :: I, none, [], true⟩ := by
    rw [contentToken_colon h.ready.rest hx, colon, hlive]
    have hflow : inFlow { s.settle with key := none } = false := by simp [inFlow, h.ready.outer]
    simp only [Option.bind_eq_bind, Option.bind_some, hflow, Bool.false_eq_true, if_false]
    rw [if_neg (by simp [h.ready.keyAllowed]), hroll, Option.bind_some]
    simp [sign, moveTo, emit, inFlow, h.ready.tokens, h.ready.indents, h.ready.outer]
  refine ⟨_, h.steps (reads_sign h.ready.rest ?_ (by decide) htoken rfl (by simp) ht), ?_⟩
  · exact Cursor.isDocumentBoundary_of_rest h.ready.rest (by decide) (by decide)
  · refine ⟨?_, ?_, rfl, rfl, rfl, rfl⟩
    · simp [Cursor.next, Cursor.skip, h.ready.rest]
    · simp [Cursor.next, Cursor.skip, h.ready.column]

inductive Brackets : Char → Char → Token → Token → Prop
  | sequence : Brackets '[' ']' .flowSequenceStart .flowSequenceEnd
  | mapping : Brackets '{' '}' .flowMappingStart .flowMappingEnd

theorem Brackets.opens_closing {o c : Char} {starts ends : Token} (h : Brackets o c starts ends)
    (t : List Char) : Opens (c :: t) := by
  cases h <;> simp [Opens, isBlank, isBreak]

theorem At.brackets {m : Nat} {o c : Char} {starts ends : Token} (hb : Brackets o c starts ends)
    (h : s.At (o :: c :: '\n' :: (spaces m ++ rest)) col before around allowed)
    (hcol : around.head? ≠ some col) (hrest : Opens rest) :
    ∃ s', Steps s s' ∧
      s'.At rest m (closed m around (ends :: starts :: before)) (kept m around) true := by
  have hclosing := hb.opens_closing ('\n' :: (spaces m ++ rest))
  have hfirst : s.settle.contentToken o =
      some ⟨s.settle.cursor.next, starts :: before, around, none, [s.settle.savedKey], true⟩ := by
    have hopen : s.settle.contentToken o = s.settle.openFlow starts := by cases hb <;> rfl
    rw [hopen, openFlow, h.ready.saveKey]
    simp [h.ready.outer, depthLimit, sign, moveTo, emit, h.ready.tokens, h.ready.indents]
  have hsecond : contentToken ⟨s.settle.cursor.next, starts :: before, around, none,
      [s.settle.savedKey], true⟩ c = some ⟨s.settle.cursor.next.next,
        ends :: starts :: before, around, s.settle.savedKey, [], false⟩ := by
    cases hb <;> rfl
  have hnext : s.settle.cursor.next.rest = c :: '\n' :: (spaces m ++ rest) := by
    simp [Cursor.next, Cursor.skip, h.ready.rest]
  have hnext' : s.settle.cursor.next.next.rest = '\n' :: (spaces m ++ rest) := by
    simp [Cursor.next, Cursor.skip, h.ready.rest]
  have hsettle : settle
      ⟨s.settle.cursor.next, starts :: before, around, none, [s.settle.savedKey], true⟩ =
      ⟨s.settle.cursor.next, starts :: before, around, none, [s.settle.savedKey], true⟩ := by
    rw [settle, toNextToken_inline hclosing (n := 0) hnext]
    rfl
  refine ⟨_, (h.steps (reads_sign h.ready.rest ?_ ?_ hfirst rfl ?_ ?_)).trans
    ((reads_sign hnext ?_ ?_ hsecond rfl ?_ (noComment_newLine _)).steps hsettle), ?_⟩
  · cases hb <;> exact Cursor.isDocumentBoundary_of_rest h.ready.rest (by decide) (by decide)
  · cases hb <;> decide
  · cases hb <;> simp
  · exact noComment_of_opens hclosing 0
  · exact Cursor.isDocumentBoundary_of_column (Nat.succ_ne_zero _)
  · cases hb <;> decide
  · cases hb <;> simp
  · exact at_newLine rfl (h.ready.savedKey hcol) hrest hnext'

theorem After.inline (h : s.After (' ' :: t) col before around) (ht : Opens t)
    (haround : ∀ i ∈ around.head?, i ≤ col) :
    ∃ col' > col, s.At t col' before around s.keyAllowed := by
  have hle : ∀ i ∈ s.indents.head?, i ≤ s.cursor.column + 1 := by
    intro i hi
    have hcolumn := h.column
    rw [h.indents] at hi
    exact Nat.le_succ_of_le (Nat.le_trans (haround i hi) (Nat.le_of_lt hcolumn))
  have := at_inline h.outer (by simp [h.key]) ht (n := 1) h.rest
  rw [closed_eq_self hle, kept_eq_self hle, h.tokens, h.indents] at this
  exact ⟨_, Nat.lt_succ_of_lt h.column, this⟩

theorem After.newLine {n : Nat} (h : s.After ('\n' :: (spaces n ++ t)) col before around)
    (ht : Opens t) (haround : ∀ i ∈ around.head?, i ≤ n) : s.At t n before around true := by
  have hle : ∀ i ∈ s.indents.head?, i ≤ n := by rwa [h.indents]
  have := at_newLine h.outer (by simp [h.key]) ht h.rest
  rwa [closed_eq_self hle, kept_eq_self hle, h.tokens, h.indents] at this

end Signs

end Scanner

end DocSite.Yaml
