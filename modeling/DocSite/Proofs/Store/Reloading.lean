import DocSite.Proofs.Store.Interleaving

/-!
Clients that load the declaration from its file. Such a client passes a gate that lets one in at a
time: it enters, reads the file, builds what it has read, makes its update of the store and leaves.
Clients that bring their declaration with them know nothing of the gate, and the files change
whenever they like. Main statement: loads take their versions in the order in which they have read,
so that none of them puts older contents over newer ones.
-/

namespace DocSite

variable {ι : Type}

def Job.Loads : Job → Prop
  | .update _ (.file ..) => True
  | _ => False

def builtSite? : Option Fields → Option Site
  | none => none
  | some fields =>
    match build fields with
    | .ok report => some report.site
    | .error _ => none

theorem Origin.site?_eq (origin : Origin) (files : Files) :
    origin.site? files = builtSite? (origin.fields? files) := rfl

namespace Phase

def ofSite? : Option Site → Phase
  | some site => .built site
  | none => .refused

def Ended : Phase → Prop
  | .refused | .updated .. | .fetched _ => True
  | _ => False

def Keeps (p q : Phase) : Prop :=
  ∀ next, p.stored? = some next → q.site? = p.site? ∧ q.stored? = some next

theorem site?_ofSite? (site? : Option Site) : (ofSite? site?).site? = site? := by
  cases site? <;> rfl

end Phase

inductive Act (ι : Type)
  | edit (files : Files)
  | enter (i : ι)
  | read (i : ι)
  | build (i : ι)
  | work (i : ι) (p : Phase)
  | leave (i : ι)

namespace Act

def update? : Act ι → Option (ι × Site)
  | .work i (.written site _) => some (i, site)
  | _ => none

theorem exists_of_update? {act : Act ι} {i : ι} {site : Site} (h : act.update? = some (i, site)) :
    ∃ next, act = .work i (.written site next) := by
  unfold update? at h
  split at h
  · next j built next =>
    obtain ⟨rfl, rfl⟩ := Prod.mk.inj (Option.some.inj h)
    exact ⟨next, rfl⟩
  · cases h

def Silent : Act ι → Prop
  | .read _ | .work _ (.written ..) => False
  | _ => True

def write (files : Files) : Act ι → Files
  | .edit files => files
  | _ => files

end Act

def updates (past : List (Act ι)) : List (ι × Site) := past.filterMap Act.update?

def filesAfter (files : Files) (past : List (Act ι)) : Files := past.foldl Act.write files

/-- A system whose loads pass a gate. -/
structure Gated (ι : Type) where
  system : System ι
  holder : Option ι
  loaded : ι → Option (Option Fields)

namespace Gated

def start (store : Store) (files : Files) : Gated ι :=
  ⟨⟨store, files, fun _ => .idle⟩, none, fun _ => none⟩

variable [DecidableEq ι]

def load (g : Gated ι) (i : ι) (fields? : Option Fields) : Gated ι :=
  { g with loaded := Function.update g.loaded i (some fields?) }

@[simp] theorem loaded_load_self (g : Gated ι) (i : ι) (fields? : Option Fields) :
    (g.load i fields?).loaded i = some fields? :=
  Function.update_self ..

theorem loaded_load_of_ne (g : Gated ι) {i j : ι} (fields? : Option Fields) (h : j ≠ i) :
    (g.load i fields?).loaded j = g.loaded j :=
  Function.update_of_ne h ..

def move (g : Gated ι) (i : ι) (p : Phase) (store : Store) : Gated ι :=
  { g with system := g.system.enter i p store }

@[simp] theorem phase_move_self (g : Gated ι) (i : ι) (p : Phase) (store : Store) :
    (g.move i p store).system.phase i = p :=
  System.phase_enter_self ..

theorem phase_move_of_ne (g : Gated ι) {i j : ι} (p : Phase) (store : Store) (h : j ≠ i) :
    (g.move i p store).system.phase j = g.system.phase j :=
  System.phase_enter_of_ne _ _ _ h

theorem move_move (g : Gated ι) (i : ι) (p q : Phase) (before after : Store) :
    (g.move i p before).move i q after = g.move i q after := by
  simp only [move, System.enter_enter]

theorem forall_phase_move {g : Gated ι} {i : ι} {p : Phase} {C : ι → Phase → Prop}
    (h : ∀ j, C j (g.system.phase j)) (hi : C i p) (store : Store) (j : ι) :
    C j ((g.move i p store).system.phase j) := by
  by_cases hji : j = i
  · subst hji
    rwa [phase_move_self]
  · rw [phase_move_of_ne g p store hji]
    exact h j

/-- One act. What a load does before it has built its site is up to the gate; everything else is a
step of the system. -/
inductive Step (jobs : ι → Job) : Gated ι → Act ι → Gated ι → Prop
  | edit {g} (files : Files) :
    Step jobs g (.edit files) { g with system := { g.system with files } }
  | enter {g i} : (jobs i).Loads → g.system.phase i = .idle → g.holder = none →
    Step jobs g (.enter i) { g with holder := some i }
  | read {g i strategy origin} : g.holder = some i → jobs i = .update strategy origin →
    g.loaded i = none → Step jobs g (.read i) (g.load i (origin.fields? g.system.files))
  | build {g i fields?} : g.holder = some i → g.loaded i = some fields? →
    g.system.phase i = .idle →
    Step jobs g (.build i) (g.move i (.ofSite? (builtSite? fields?)) g.system.store)
  | work {g i p store} : System.Step jobs g.system (g.system.enter i p store) →
    p ≠ g.system.phase i → ((jobs i).Loads → g.system.phase i ≠ .idle) →
    Step jobs g (.work i p) (g.move i p store)
  | leave {g i} : g.holder = some i → (g.system.phase i).Ended →
    Step jobs g (.leave i) { g with holder := none }

inductive Run (jobs : ι → Job) (start : Gated ι) : List (Act ι) → Gated ι → Prop
  | nil : Run jobs start [] start
  | snoc {past g act t} : Run jobs start past g → Step jobs g act t →
    Run jobs start (past ++ [act]) t

end Gated

section Acts

variable {past : List (Act ι)} {act : Act ι} {d : ι × Site} {files : Files} {k p q : Nat}

theorem getElem?_concat_iff {α : Type} {l : List α} {x y : α} :
    (l ++ [x])[k]? = some y ↔ l[k]? = some y ∨ k = l.length ∧ x = y := by
  rw [List.getElem?_append]
  split
  · next h => simp [Nat.ne_of_lt h]
  · next h =>
    rw [List.getElem?_eq_none (Nat.le_of_not_lt h), List.getElem?_singleton]
    grind

theorem getElem?_concat_of_ne {α : Type} {l : List α} {x y : α} (h : x ≠ y) :
    (l ++ [x])[k]? = some y ↔ l[k]? = some y := by
  rw [getElem?_concat_iff]
  exact or_iff_left fun hx => h hx.2

theorem take_concat {α : Type} {l : List α} {y : α} (h : l[k]? = some y) (x : α) :
    (l ++ [x]).take k = l.take k :=
  List.take_append_of_le_length (Nat.le_of_lt (List.getElem?_eq_some_iff.mp h).1)

theorem filesAfter_concat :
    filesAfter files (past ++ [act]) = act.write (filesAfter files past) := by
  simp [filesAfter]

theorem updates_concat : updates (past ++ [act]) = updates past ++ act.update?.toList := by
  cases h : act.update? <;> simp [updates, h]

theorem filesAfter_take_succ (files : Files) (past : List (Act ι)) (k : Nat) :
    filesAfter files (past.take (k + 1)) = filesAfter files (past.take k) ∨
      past[k]? = some (.edit (filesAfter files (past.take (k + 1)))) := by
  rw [List.take_add_one]
  cases hk : past[k]? with
  | none => simp
  | some act =>
    rw [Option.toList_some, filesAfter_concat]
    cases act with
    | edit edited => exact .inr rfl
    | _ => exact .inl rfl

theorem filesAfter_take (files : Files) (past : List (Act ι)) (hpq : p ≤ q) :
    filesAfter files (past.take q) = filesAfter files (past.take p) ∨
      ∃ k, p ≤ k ∧ k < q ∧ past[k]? = some (.edit (filesAfter files (past.take q))) := by
  induction hpq with
  | refl => exact .inl rfl
  | @step q hpq ih =>
    obtain hsame | hedit := filesAfter_take_succ files past q
    · rw [Nat.succ_eq_add_one, hsame]
      exact ih.imp_right fun ⟨k, hpk, hkq, hk⟩ => ⟨k, hpk, Nat.lt_succ_of_lt hkq, hk⟩
    · exact .inr ⟨q, hpq, Nat.lt_succ_self q, hedit⟩

theorem updates_take (hp : past[p]? = some act) (hact : act.update? = some d) :
    (updates past)[(updates (past.take p)).length]? = some d ∧
      (updates past).take (updates (past.take p)).length = updates (past.take p) := by
  have hsplit : updates past = updates (past.take p) ++ d :: updates (past.drop (p + 1)) := by
    obtain ⟨hlt, rfl⟩ := List.getElem?_eq_some_iff.mp hp
    conv_lhs => rw [← List.take_append_drop p past, List.drop_eq_getElem_cons hlt, updates,
      List.filterMap_append, List.filterMap_cons, hact]
    rfl
  rw [hsplit]
  simp

theorem length_updates_take_lt (hp : past[p]? = some act) (hact : act.update? = some d)
    (hpq : p < q) : (updates (past.take p)).length < (updates (past.take q)).length := by
  have hq : (past.take q)[p]? = some act := by rw [List.getElem?_take_of_lt hpq, hp]
  have hlt := (List.getElem?_eq_some_iff.mp (updates_take hq hact).1).1
  rwa [List.take_take, Nat.min_eq_left (Nat.le_of_lt hpq)] at hlt

end Acts

section Moves

variable [DecidableEq ι] {jobs : ι → Job} {s : System ι} {i j : ι} {p q : Phase} {a b : Store}

theorem System.enter_eq_enter (h : s.enter i p a = s.enter j q b) (hp : p ≠ s.phase i) :
    i = j ∧ p = q ∧ a = b := by
  have hi : p = (s.enter j q b).phase i := by rw [← h, phase_enter_self]
  obtain rfl : i = j := by
    by_contra hne
    rw [phase_enter_of_ne s q b hne] at hi
    exact hp hi
  exact ⟨rfl, by rwa [phase_enter_self] at hi, congrArg System.store h⟩

theorem System.Step.of_enter (h : Step jobs s (s.enter i p a)) (hp : p ≠ s.phase i) :
    ¬(s.phase i).Ended ∧ (s.phase i ≠ .idle → p.site? = (s.phase i).site?) ∧
      ((∃ site next, s.phase i = .stamped site next ∧ p = .written site next ∧
        a = { s.store with snapshot := some next }) ∨
      (∀ site next, p ≠ .written site next) ∧ p.stored? = (s.phase i).stored?) := by
  generalize ht : s.enter i p a = t at h
  cases h with
  | edit files =>
    have hsame : p = s.phase i := by rw [← phase_enter_self s i p a, ht]
    exact absurd hsame hp
  | write hphase =>
    obtain ⟨rfl, rfl, rfl⟩ := enter_eq_enter ht hp
    rw [hphase]
    exact ⟨id, fun _ => rfl, .inl ⟨_, _, rfl, rfl, rfl⟩⟩
  | refuse _ hphase _ | build _ hphase _ | share _ hphase _ =>
    obtain ⟨rfl, rfl, rfl⟩ := enter_eq_enter ht hp
    rw [hphase]
    exact ⟨id, fun hne => absurd rfl hne, .inr ⟨by rintro _ _ ⟨⟩, rfl⟩⟩
  | lock hphase _ | look hphase | derive _ hphase | stamp _ hphase | unlock hphase | read hphase
  | unshare hphase =>
    obtain ⟨rfl, rfl, rfl⟩ := enter_eq_enter ht hp
    rw [hphase]
    exact ⟨id, fun _ => rfl, .inr ⟨by rintro _ _ ⟨⟩, rfl⟩⟩

end Moves

namespace Gated

section Kept

variable {jobs : ι → Job} {store : Store} {files : Files} {past : List (Act ι)} {g t : Gated ι}
  {act : Act ι}

def Built (jobs : ι → Job) (g : Gated ι) (i : ι) (p : Phase) : Prop :=
  (jobs i).Loads → p ≠ .idle → ∃ fields?, g.loaded i = some fields? ∧ p.site? = builtSite? fields?

def Inside (g : Gated ι) (i : ι) (p : Phase) : Prop :=
  g.loaded i ≠ none → ¬p.Ended → g.holder = some i

/-- What holds after some acts. Whoever has read is inside the gate until its update is over, and
nobody else has read since. -/
structure Kept (jobs : ι → Job) (store : Store) (files : Files) (past : List (Act ι))
    (g : Gated ι) : Prop where
  system : g.system.Invariant jobs store (updates past)
  contents : g.system.files = filesAfter files past
  unread : ∀ i, g.loaded i = none → ∀ k : Nat, past[k]? ≠ some (Act.read i)
  read : ∀ i fields?, g.loaded i = some fields? → ∃ (a : Nat) (strategy : Strategy)
    (origin : Origin), (∀ k : Nat, past[k]? = some (.read i) ↔ k = a) ∧
      jobs i = .update strategy origin ∧ fields? = origin.fields? (filesAfter files (past.take a))
  built : ∀ i, g.Built jobs i (g.system.phase i)
  inside : ∀ i, g.Inside i (g.system.phase i)
  last : ∀ (i : ι) (a : Nat), g.holder = some i → past[a]? = some (.read i) →
    ∀ (j : ι) (b : Nat), past[b]? = some (.read j) → b ≤ a
  stored : ∀ (i : ι) (site : Site) (next : Snapshot) (p : Nat),
    past[p]? = some (.work i (.written site next)) →
      (g.system.phase i).site? = some site ∧ (g.system.phase i).stored? = some next
  apart : ∀ (i : ι) (site : Site) (next : Snapshot) (p : Nat), (jobs i).Loads →
    past[p]? = some (.work i (.written site next)) → ∃ a < p, past[a]? = some (.read i) ∧
      ∀ (j : ι) (b : Nat), past[b]? = some (.read j) → b ≤ a ∨ p < b

theorem Kept.start : Kept jobs store files [] (start store files) where
  system := System.invariant_of_idle (s := (Gated.start store files).system) fun _ => rfl
  contents := rfl
  unread := by simp
  read := by simp [Gated.start]
  built := fun _ _ hne => absurd rfl hne
  inside := fun _ hne => absurd rfl hne
  last := by simp
  stored := by simp
  apart := by simp

theorem Kept.unseen (h : Kept jobs store files past g) {i : ι} (hidle : g.system.phase i = .idle)
    (hholder : g.holder = none) : g.loaded i = none := by
  by_contra hloaded
  have hinside := h.inside i hloaded (by rw [hidle]; exact id)
  rw [hholder] at hinside
  cases hinside

theorem Kept.read_concat (h : Kept jobs store files past g) {i : ι} {fields? : Option Fields}
    (hi : g.loaded i = some fields?)
    (hreads : ∀ k : Nat, (past ++ [act])[k]? = some (.read i) ↔ past[k]? = some (.read i)) :
    ∃ (a : Nat) (strategy : Strategy) (origin : Origin),
      (∀ k : Nat, (past ++ [act])[k]? = some (.read i) ↔ k = a) ∧
      jobs i = .update strategy origin ∧
      fields? = origin.fields? (filesAfter files ((past ++ [act]).take a)) := by
  obtain ⟨a, strategy, origin, hat, hjob, hfields⟩ := h.read i fields? hi
  refine ⟨a, strategy, origin, fun k => (hreads k).trans (hat k), hjob, ?_⟩
  rwa [take_concat ((hat a).mpr rfl)]

theorem Kept.of_silent (h : Kept jobs store files past g) (hact : act.Silent)
    (hsystem : t.system.Invariant jobs store (updates past))
    (hfiles : t.system.files = act.write g.system.files) (hloaded : t.loaded = g.loaded)
    (hbuilt : ∀ i, t.Built jobs i (t.system.phase i))
    (hinside : ∀ i, t.Inside i (t.system.phase i))
    (hlast : ∀ i, t.holder = some i → g.holder = some i ∨ g.loaded i = none)
    (hkeeps : ∀ i, (g.system.phase i).Keeps (t.system.phase i)) :
    Kept jobs store files (past ++ [act]) t := by
  have reads (i : ι) (k : Nat) :
      (past ++ [act])[k]? = some (.read i) ↔ past[k]? = some (.read i) :=
    getElem?_concat_of_ne (by rintro rfl; exact hact)
  have writes (i : ι) (site : Site) (next : Snapshot) (k : Nat) :
      (past ++ [act])[k]? = some (.work i (.written site next)) ↔
        past[k]? = some (.work i (.written site next)) :=
    getElem?_concat_of_ne (by rintro rfl; exact hact)
  have hnone : act.update? = none := by
    rw [Act.update?]
    rintro i site next rfl
    exact hact
  constructor
  case system =>
    rwa [updates_concat, hnone, Option.toList_none, List.append_nil]
  case contents =>
    rw [hfiles, h.contents, filesAfter_concat]
  case unread =>
    intro i hi k
    rw [Ne, reads]
    exact h.unread i (by rwa [← hloaded]) k
  case read =>
    intro i fields? hi
    exact h.read_concat (by rwa [← hloaded]) (reads i)
  case built =>
    exact hbuilt
  case inside =>
    exact hinside
  case last =>
    intro i a hi ha j b hb
    rw [reads] at ha hb
    obtain hold | hnone := hlast i hi
    · exact h.last i a hold ha j b hb
    · exact absurd ha (h.unread i hnone a)
  case stored =>
    intro i site next k hk
    rw [writes] at hk
    obtain ⟨hsite, hnext⟩ := h.stored i site next k hk
    obtain ⟨hsame, ht⟩ := hkeeps i next hnext
    exact ⟨hsame.trans hsite, ht⟩
  case apart =>
    intro i site next p hi hp
    rw [writes] at hp
    obtain ⟨a, hap, ha, hothers⟩ := h.apart i site next p hi hp
    refine ⟨a, hap, (reads i a).mpr ha, ?_⟩
    intro j b hb
    exact hothers j b ((reads j b).mp hb)

theorem Kept.edit (h : Kept jobs store files past g) (edited : Files) :
    Kept jobs store files (past ++ [.edit edited])
      { g with system := { g.system with files := edited } } :=
  have hs := h.system
  h.of_silent trivial ⟨hs.distinct, hs.exclusive, hs.snapshot, hs.quiet, hs.fits⟩ rfl rfl
    h.built h.inside (fun _ => .inl) fun _ _ hi => ⟨rfl, hi⟩

theorem Kept.enter (h : Kept jobs store files past g) {i : ι} (hidle : g.system.phase i = .idle)
    (hholder : g.holder = none) :
    Kept jobs store files (past ++ [.enter i]) { g with holder := some i } := by
  refine h.of_silent trivial h.system rfl rfl h.built ?_ ?_ fun _ _ hi => ⟨rfl, hi⟩
  · intro j hj hended
    have hinside := h.inside j hj hended
    rw [hholder] at hinside
    cases hinside
  · intro j hj
    obtain rfl := Option.some.inj hj
    exact .inr (h.unseen hidle hholder)

theorem Kept.leave (h : Kept jobs store files past g) {i : ι} (hholder : g.holder = some i)
    (hended : (g.system.phase i).Ended) :
    Kept jobs store files (past ++ [.leave i]) { g with holder := none } := by
  refine h.of_silent trivial h.system rfl rfl h.built ?_ (by rintro _ ⟨⟩) fun _ _ hi => ⟨rfl, hi⟩
  intro j hj hnot
  obtain rfl := Option.some.inj (hholder.symm.trans (h.inside j hj hnot))
  exact absurd hended hnot

end Kept

section Step

variable [DecidableEq ι] {jobs : ι → Job} {store : Store} {files : Files} {past : List (Act ι)}
  {g : Gated ι} {i : ι}

theorem Kept.build (h : Kept jobs store files past g) {fields? : Option Fields}
    (hholder : g.holder = some i) (hloaded : g.loaded i = some fields?)
    (hidle : g.system.phase i = .idle) : Kept jobs store files (past ++ [.build i])
      (g.move i (.ofSite? (builtSite? fields?)) g.system.store) := by
  have hfits := h.system.fits i
  rw [hidle] at hfits
  have hsystem : (g.system.enter i (.ofSite? (builtSite? fields?)) g.system.store).Invariant jobs
      store (updates past) := by
    refine h.system.enter ?_ ?_ (by rw [hidle]; exact False.elim)
    · cases builtSite? fields? <;> exact hfits
    · cases builtSite? fields? <;> exact False.elim
  refine h.of_silent trivial hsystem rfl rfl (forall_phase_move h.built ?_ _)
    (forall_phase_move h.inside (fun _ _ => hholder) _) (fun _ => .inl)
    (forall_phase_move (C := fun j => (g.system.phase j).Keeps) (fun _ _ hj => ⟨rfl, hj⟩) ?_ _)
  · exact fun _ _ => ⟨fields?, hloaded, Phase.site?_ofSite? _⟩
  · intro next hnext
    rw [hidle] at hnext
    cases hnext

theorem Kept.reading (h : Kept jobs store files past g) {strategy : Strategy} {origin : Origin}
    (hholder : g.holder = some i) (hjob : jobs i = .update strategy origin)
    (hloaded : g.loaded i = none) :
    Kept jobs store files (past ++ [.read i]) (g.load i (origin.fields? g.system.files)) := by
  have others {j : ι} (hji : j ≠ i) (k : Nat) :
      (past ++ [Act.read i])[k]? = some (.read j) ↔ past[k]? = some (.read j) :=
    getElem?_concat_of_ne fun heq => hji (Act.read.inj heq).symm
  have own (k : Nat) : (past ++ [Act.read i])[k]? = some (.read i) ↔ k = past.length := by
    rw [getElem?_concat_iff]
    exact ⟨fun hk => hk.elim (fun hk => absurd hk (h.unread i hloaded k)) And.left,
      fun hk => .inr ⟨hk, rfl⟩⟩
  have writes (j : ι) (site : Site) (next : Snapshot) (k : Nat) :
      (past ++ [Act.read i])[k]? = some (.work j (.written site next)) ↔
        past[k]? = some (.work j (.written site next)) :=
    getElem?_concat_of_ne (by rintro ⟨⟩)
  constructor
  case system =>
    have hnone : (Act.read i).update? = none := rfl
    rw [updates_concat, hnone, Option.toList_none, List.append_nil]
    exact h.system
  case contents =>
    rw [filesAfter_concat]
    exact h.contents
  case unread =>
    intro j hj k
    have hji : j ≠ i := by
      rintro rfl
      rw [loaded_load_self] at hj
      cases hj
    rw [loaded_load_of_ne _ _ hji] at hj
    rw [Ne, others hji]
    exact h.unread j hj k
  case read =>
    intro j fields? hj
    by_cases hji : j = i
    · subst hji
      rw [loaded_load_self] at hj
      refine ⟨past.length, strategy, origin, own, hjob, ?_⟩
      rw [List.take_left, ← h.contents, Option.some.inj hj]
    · rw [loaded_load_of_ne _ _ hji] at hj
      exact h.read_concat hj (others hji)
  case built =>
    intro j hjobs hj
    obtain ⟨fields?, hfields, hsite⟩ := h.built j hjobs hj
    have hji : j ≠ i := by
      rintro rfl
      rw [hloaded] at hfields
      cases hfields
    exact ⟨fields?, by rwa [loaded_load_of_ne _ _ hji], hsite⟩
  case inside =>
    intro j hj hended
    by_cases hji : j = i
    · rwa [hji]
    · rw [loaded_load_of_ne _ _ hji] at hj
      exact h.inside j hj hended
  case last =>
    intro j a hj ha k b hb
    obtain rfl := Option.some.inj (hholder.symm.trans hj)
    obtain rfl := (own a).mp ha
    have hlt := (List.getElem?_eq_some_iff.mp hb).1
    rw [List.length_append, List.length_singleton] at hlt
    exact Nat.le_of_lt_succ hlt
  case stored =>
    intro j site next p hp
    exact h.stored j site next p ((writes j site next p).mp hp)
  case apart =>
    intro j site next p hjobs hp
    rw [writes] at hp
    obtain ⟨a, hap, ha, hothers⟩ := h.apart j site next p hjobs hp
    refine ⟨a, hap, getElem?_concat_iff.mpr (.inl ha), ?_⟩
    intro k b hb
    obtain hb | ⟨rfl, -⟩ := getElem?_concat_iff.mp hb
    · exact hothers k b hb
    · exact .inr (List.getElem?_eq_some_iff.mp hp).1

theorem Kept.working (h : Kept jobs store files past g) {p : Phase} {after : Store}
    (hstep : System.Step jobs g.system (g.system.enter i p after)) (hp : p ≠ g.system.phase i)
    (hgate : (jobs i).Loads → g.system.phase i ≠ .idle)
    (hnot : ∀ site next, p ≠ .written site next) :
    Kept jobs store files (past ++ [.work i p]) (g.move i p after) := by
  obtain ⟨hended, hsite, ⟨site, next, -, hwritten, -⟩ | ⟨-, hstored⟩⟩ := hstep.of_enter hp
  · exact absurd hwritten (hnot site next)
  have hsilent : (Act.work i p).Silent := by
    cases p with
    | written site next => exact absurd rfl (hnot site next)
    | _ => trivial
  have hsystem : (g.system.enter i p after).Invariant jobs store (updates past) := by
    obtain ht | ⟨j, site, next, -, ht⟩ := h.system.step_or_write hstep
    · exact ht
    · obtain ⟨-, hwritten, -⟩ := System.enter_eq_enter ht hp
      exact absurd hwritten (hnot site next)
  refine h.of_silent hsilent hsystem rfl rfl (forall_phase_move h.built ?_ _)
    (forall_phase_move h.inside (fun hloaded _ => h.inside i hloaded hended) _) (fun _ => .inl)
    (forall_phase_move (C := fun j => (g.system.phase j).Keeps) (fun _ _ hj => ⟨rfl, hj⟩) ?_ _)
  · intro hloads _
    rw [hsite (hgate hloads)]
    exact h.built i hloads (hgate hloads)
  · intro next hnext
    rw [hstored]
    refine ⟨hsite fun hidle => ?_, hnext⟩
    rw [hidle] at hnext
    cases hnext

theorem Kept.writing (h : Kept jobs store files past g) {site : Site} {next : Snapshot}
    (hphase : g.system.phase i = .stamped site next) :
    Kept jobs store files (past ++ [.work i (.written site next)])
      (g.move i (.written site next) { g.system.store with snapshot := some next }) := by
  have reads (j : ι) (k : Nat) :
      (past ++ [Act.work i (.written site next)])[k]? = some (.read j) ↔
        past[k]? = some (.read j) :=
    getElem?_concat_of_ne (by rintro ⟨⟩)
  constructor
  case system =>
    rw [updates_concat]
    exact h.system.write hphase
  case contents =>
    rw [filesAfter_concat]
    exact h.contents
  case unread =>
    intro j hj k
    rw [Ne, reads]
    exact h.unread j hj k
  case read =>
    intro j fields? hj
    exact h.read_concat hj (reads j)
  case built =>
    refine forall_phase_move h.built (fun hloads _ => ?_) _
    obtain ⟨fields?, hloaded, hsite⟩ := h.built i hloads (by rw [hphase]; rintro ⟨⟩)
    rw [hphase] at hsite
    exact ⟨fields?, hloaded, hsite⟩
  case inside =>
    refine forall_phase_move h.inside (fun hloaded _ => ?_) _
    exact h.inside i hloaded (by rw [hphase]; exact id)
  case last =>
    intro j a hj ha k b hb
    exact h.last j a hj ((reads j a).mp ha) k b ((reads k b).mp hb)
  case stored =>
    intro j site' next' p hp
    by_cases hji : j = i
    · subst hji
      rw [phase_move_self]
      obtain hold | ⟨-, heq⟩ := getElem?_concat_iff.mp hp
      · have hstored := (h.stored j site' next' p hold).2
        rw [hphase] at hstored
        cases hstored
      · cases heq
        exact ⟨rfl, rfl⟩
    · rw [phase_move_of_ne _ _ _ hji]
      obtain hold | ⟨-, heq⟩ := getElem?_concat_iff.mp hp
      · exact h.stored j site' next' p hold
      · cases heq
        exact absurd rfl hji
  case apart =>
    intro j site' next' p hj hp
    obtain hold | ⟨rfl, heq⟩ := getElem?_concat_iff.mp hp
    · obtain ⟨a, hap, ha, hothers⟩ := h.apart j site' next' p hj hold
      exact ⟨a, hap, (reads j a).mpr ha, fun k b hb => hothers k b ((reads k b).mp hb)⟩
    · cases heq
      obtain ⟨fields?, hloaded, -⟩ := h.built i hj (by rw [hphase]; rintro ⟨⟩)
      obtain ⟨a, -, -, hat, -, -⟩ := h.read i fields? hloaded
      have ha : past[a]? = some (.read i) := (hat a).mpr rfl
      have hholder : g.holder = some i :=
        h.inside i (by rw [hloaded]; rintro ⟨⟩) (by rw [hphase]; exact id)
      refine ⟨a, (List.getElem?_eq_some_iff.mp ha).1, (reads i a).mpr ha, ?_⟩
      intro k b hb
      exact .inl (h.last i a hholder ha k b ((reads k b).mp hb))

theorem Kept.step (h : Kept jobs store files past g) {act : Act ι} {t : Gated ι}
    (hstep : Step jobs g act t) : Kept jobs store files (past ++ [act]) t := by
  cases hstep with
  | edit edited => exact h.edit edited
  | enter _ hidle hholder => exact h.enter hidle hholder
  | read hholder hjob hloaded => exact h.reading hholder hjob hloaded
  | build hholder hloaded hidle => exact h.build hholder hloaded hidle
  | leave hholder hended => exact h.leave hholder hended
  | @work i p after hwork hp hgate =>
    obtain ⟨-, -, ⟨site, next, hphase, rfl, rfl⟩ | ⟨hnot, -⟩⟩ := hwork.of_enter hp
    · exact h.writing hphase
    · exact h.working hwork hp hgate hnot

theorem Run.kept (h : Run jobs (start store files) past g) : Kept jobs store files past g := by
  induction h with
  | nil => exact .start
  | snoc _ hstep ih => exact ih.step hstep

end Step

/-- A load that has succeeded: its file was read with one act and no other, and with another one
the site that was built from it was put into the store that the updates before had left. -/
structure Load (jobs : ι → Job) (store : Store) (files : Files) (past : List (Act ι)) (i : ι)
    (a p : Nat) (next : Snapshot) : Prop where
  read : ∀ k : Nat, past[k]? = some (.read i) ↔ k = a
  write : ∀ (k : Nat) (site : Site) (other : Snapshot),
    past[k]? = some (.work i (.written site other)) → k = p
  made : ∃ strategy here path parse site, jobs i = .update strategy (.file here path parse) ∧
    (Origin.file here path parse).site? (filesAfter files (past.take a)) = some site ∧
    past[p]? = some (.work i (.written site next)) ∧
    ((serial jobs store (updates (past.take p))).put strategy ("file:" ++ path) site).1 = .ok next

section Main

variable {jobs : ι → Job} {store : Store} {files : Files} {past : List (Act ι)} {g : Gated ι}
  {i j : ι} {a b p q : Nat} {next later : Snapshot}

theorem Kept.write_unique (h : Kept jobs store files past g) {site other : Site}
    (hp : past[p]? = some (.work i (.written site next)))
    (hq : past[q]? = some (.work i (.written other later))) : p = q := by
  have differ {p q : Nat} {site other : Site} {next later : Snapshot}
      (hp : past[p]? = some (.work i (.written site next)))
      (hq : past[q]? = some (.work i (.written other later))) : ¬p < q := by
    intro hpq
    have hlt := length_updates_take_lt hp rfl hpq
    have hkp := (updates_take hp rfl).1
    have hkq := (updates_take hq rfl).1
    have hsame : ((updates past).map (·.1))[(updates (past.take p)).length]? =
        ((updates past).map (·.1))[(updates (past.take q)).length]? := by
      rw [List.getElem?_map, List.getElem?_map, hkp, hkq]
      rfl
    refine Nat.ne_of_lt hlt ((List.getElem?_inj ?_ h.system.distinct).mp hsame)
    simpa using (List.getElem?_eq_some_iff.mp hkp).1
  exact Nat.le_antisymm (Nat.le_of_not_lt (differ hq hp)) (Nat.le_of_not_lt (differ hp hq))

theorem Kept.load (h : Kept jobs store files past g) (hi : (jobs i).Loads)
    (hnext : (g.system.phase i).stored? = some next) :
    ∃ a p, Load jobs store files past i a p next := by
  obtain ⟨⟨_, site⟩, hmem, rfl⟩ := List.mem_map.mp (h.system.mem_of_stored hnext)
  obtain ⟨act, hact, hupdate⟩ := List.mem_filterMap.mp hmem
  obtain ⟨other, rfl⟩ := Act.exists_of_update? hupdate
  obtain ⟨p, hp⟩ := List.mem_iff_getElem?.mp hact
  obtain ⟨hsite, hstored⟩ := h.stored _ site other p hp
  obtain rfl : other = next := Option.some.inj (hstored.symm.trans hnext)
  -- what it has read, and what came of it
  obtain ⟨fields?, hloaded, hbuilt⟩ := h.built _ hi fun hidle => by
    rw [hidle] at hnext
    cases hnext
  obtain ⟨a, strategy, origin, hat, hjob, rfl⟩ := h.read _ fields? hloaded
  rw [hsite] at hbuilt
  -- the update of the store
  obtain ⟨hnumber, htake⟩ := updates_take hp rfl
  obtain ⟨next, -, hnext', -, strategy', origin', hjob', hmade⟩ := h.system.committed hnumber
  obtain rfl : next = other := Option.some.inj (hnext'.symm.trans hnext)
  obtain ⟨rfl, rfl⟩ := Job.update.inj (hjob.symm.trans hjob')
  rw [hjob] at hi
  cases origin with
  | body limit text => exact hi.elim
  | file here path parse =>
    refine ⟨a, p, hat, fun k built later hk => h.write_unique hk hp, strategy, here, path, parse,
      site, hjob, hbuilt.symm, hp, ?_⟩
    rw [htake] at hmade
    rw [hmade]
    rfl

theorem Kept.version (h : Kept jobs store files past g)
    (hnext : Load jobs store files past i a p next) :
    next.version = store.nextVersion + (updates (past.take p)).length := by
  obtain ⟨strategy, here, path, parse, site, -, -, hp, hput⟩ := hnext.made
  have hjobs : ∀ d ∈ updates (past.take p),
      ∃ strategy origin, jobs d.1 = .update strategy origin := by
    intro d hd
    rw [← (updates_take hp rfl).2] at hd
    obtain ⟨k, hk⟩ := List.mem_iff_getElem?.mp (List.mem_of_mem_take hd)
    obtain ⟨_, _, _, -, strategy, origin, hjob, -⟩ := h.system.committed hk
    exact ⟨strategy, origin, hjob⟩
  rw [← nextVersion_serial hjobs]
  obtain rfl := Except.ok.inj hput
  rfl

theorem Kept.version_lt_iff (h : Kept jobs store files past g)
    (hnext : Load jobs store files past i a p next)
    (hlater : Load jobs store files past j b q later) : next.version < later.version ↔ p < q := by
  have earlier {i j : ι} {a b p q : Nat} {next later : Snapshot}
      (hnext : Load jobs store files past i a p next)
      (hlater : Load jobs store files past j b q later) (hpq : p < q) :
      next.version < later.version := by
    obtain ⟨strategy, here, path, parse, site, -, -, hp, -⟩ := hnext.made
    rw [h.version hnext, h.version hlater]
    exact Nat.add_lt_add_left (length_updates_take_lt hp rfl hpq) _
  refine ⟨fun hlt => ?_, earlier hnext hlater⟩
  by_contra hpq
  obtain rfl | hqp := Nat.eq_or_lt_of_le (Nat.le_of_not_lt hpq)
  · rw [h.version hnext, h.version hlater] at hlt
    exact Nat.lt_irrefl _ hlt
  · exact Nat.lt_asymm hlt (earlier hlater hnext hqp)

theorem Kept.read_after_write (h : Kept jobs store files past g)
    (hnext : Load jobs store files past i a p next)
    (hlater : Load jobs store files past j b q later) (hpq : p < q) : a < p ∧ p < b ∧ b < q := by
  obtain ⟨_, _, _, _, site, hjob, -, hp, -⟩ := hnext.made
  obtain ⟨_, _, _, _, other, hjob', -, hq, -⟩ := hlater.made
  obtain ⟨a', hap, ha, hnexts⟩ := h.apart i site next p (by rw [hjob]; trivial) hp
  obtain ⟨b', hbq, hb, hlaters⟩ := h.apart j other later q (by rw [hjob']; trivial) hq
  obtain rfl := (hnext.read a').mp ha
  obtain rfl := (hlater.read b').mp hb
  refine ⟨hap, ?_, hbq⟩
  obtain hba | hpb := hnexts j b' hb
  · obtain hab | hqa := hlaters i a' ha
    · -- then both have read at once, and are the same
      obtain rfl := Nat.le_antisymm hab hba
      obtain rfl := Act.read.inj (Option.some.inj (ha.symm.trans hb))
      exact absurd (h.write_unique hp hq) (Nat.ne_of_lt hpq)
    · exact absurd (Nat.lt_trans hap hpq) (Nat.lt_asymm hqa)
  · exact hpb

end Main

section Alone

variable [DecidableEq ι] {jobs : ι → Job} {s g : Gated ι} {past : List (Act ι)} {i : ι}
  {p q : Phase} {a b : Store}

theorem Run.work (h : Run jobs s past (g.move i p a)) (hp : p ≠ .idle) (hq : q ≠ p)
    (hstep : System.Step jobs (g.system.enter i p a) ((g.system.enter i p a).enter i q b)) :
    Run jobs s (past ++ [.work i q]) (g.move i q b) := by
  rw [← move_move g i p q a b]
  exact h.snoc (.work hstep (by rwa [phase_move_self]) fun _ => by rwa [phase_move_self])

theorem Run.load (h : Run jobs s past g) {strategy : Strategy} {here : Path.Place} {path : String}
    {parse : Parser} (hjob : jobs i = .update strategy (.file here path parse))
    (hidle : g.system.phase i = .idle)
    (hloaded : g.loaded i = none) (hholder : g.holder = none) (hfree : g.system.Free) {site : Site}
    (hsite : (Origin.file here path parse).site? g.system.files = some site) :
    ∃ more next t, Run jobs s (past ++ more) t ∧ t.holder = none ∧
      (∀ j, j ≠ i → t.loaded j = g.loaded j) ∧
      (g.system.store.put strategy ("file:" ++ path) site).1 = .ok next ∧
      t.system = g.system.enter i (.updated site next)
        (g.system.store.put strategy ("file:" ++ path) site).2 := by
  let current := g.system.store.snapshot
  let next : Snapshot := ⟨strategy.apply current site, g.system.store.nextVersion,
    "file:" ++ path, g.system.store.clock.now⟩
  let ticked : Store := ⟨current, g.system.store.clock.tick⟩
  let after : Store := ⟨some next, g.system.store.clock.tick⟩
  let fields? := (Origin.file here path parse).fields? g.system.files
  let inside : Gated ι := { g with holder := some i }
  let loaded := inside.load i fields?
  have enter : Run jobs s _ inside := h.snoc (.enter (by rw [hjob]; trivial) hidle hholder)
  have read : Run jobs s _ loaded := enter.snoc (.read rfl hjob hloaded)
  have build : Run jobs s _ (loaded.move i (.ofSite? (builtSite? fields?)) g.system.store) :=
    read.snoc (.build rfl (loaded_load_self inside i fields?) hidle)
  rw [← Origin.site?_eq, hsite] at build
  have lock : Run jobs s _ (loaded.move i (.locked site) g.system.store) :=
    build.work (by rintro ⟨⟩) (by rintro ⟨⟩)
      (.lock (System.phase_enter_self ..) (hfree.enter id id _))
  have look : Run jobs s _ (loaded.move i (.seen site current) g.system.store) :=
    lock.work (by rintro ⟨⟩) (by rintro ⟨⟩) (.look (System.phase_enter_self ..))
  have derive : Run jobs s _ (loaded.move i (.derived site next.site) g.system.store) :=
    look.work (by rintro ⟨⟩) (by rintro ⟨⟩) (.derive hjob (System.phase_enter_self ..))
  have stamp : Run jobs s _ (loaded.move i (.stamped site next) ticked) :=
    derive.work (by rintro ⟨⟩) (by rintro ⟨⟩) (.stamp hjob (System.phase_enter_self ..))
  have write : Run jobs s _ (loaded.move i (.written site next) after) :=
    stamp.work (by rintro ⟨⟩) (by rintro ⟨⟩) (.write (System.phase_enter_self ..))
  have unlock : Run jobs s _ (loaded.move i (.updated site next) after) :=
    write.work (by rintro ⟨⟩) (by rintro ⟨⟩) (.unlock (System.phase_enter_self ..))
  have leave := unlock.snoc (.leave rfl (by rw [phase_move_self]; trivial))
  simp only [List.append_assoc] at leave
  exact ⟨_, next, _, leave, rfl, fun j hj => loaded_load_of_ne inside fields? hj, rfl, rfl⟩

end Alone

section Main

variable {jobs : ι → Job} {store : Store} {files : Files} {past : List (Act ι)} {g : Gated ι}

/-- Loads have their versions in the order in which they have read. Once one of them has put into
the store what it has read, every later one has read the same or something newer. Versions that are
kept in 64 bits are compared like this for fewer than 2 ^ 64 updates. -/
theorem Run.loads_in_order [DecidableEq ι] (h : Run jobs (start store files) past g) :
    g.system.files = filesAfter files past ∧
    g.system.store.snapshot = (serial jobs store (updates past)).snapshot ∧
    (∀ i next, (jobs i).Loads → (g.system.phase i).stored? = some next →
      ∃ a p, Load jobs store files past i a p next) ∧
    ∀ i j a b p q next later, Load jobs store files past i a p next →
      Load jobs store files past j b q later →
        (next.version < later.version ↔ p < q) ∧
        (p < q → a < p ∧ p < b ∧ b < q ∧
          (filesAfter files (past.take b) = filesAfter files (past.take a) ∨
            ∃ k, a < k ∧ k < b ∧
              past[k]? = some (.edit (filesAfter files (past.take b))))) := by
  have hkept := h.kept
  refine ⟨hkept.contents, hkept.system.snapshot, fun i next => hkept.load, ?_⟩
  intro i j a b p q next later hnext hlater
  refine ⟨hkept.version_lt_iff hnext hlater, fun hpq => ?_⟩
  obtain ⟨hap, hpb, hbq⟩ := hkept.read_after_write hnext hlater hpq
  refine ⟨hap, hpb, hbq, ?_⟩
  obtain hsame | ⟨k, hak, hkb, hk⟩ :=
    filesAfter_take files past (Nat.le_of_lt (Nat.lt_trans hap hpb))
  · exact .inl hsame
  · refine .inr ⟨k, Nat.lt_of_le_of_ne hak ?_, hkb, hk⟩
    rintro rfl
    rw [(hnext.read a).mpr rfl] at hk
    cases hk

theorem Run.loads_in_order_edited :
    let files (title : String) := Files.empty.write ["site.json".toList]
      ("\x7b\"title\":\"" ++ title ++ "\",\"description\":\"D\"\x7d")
    let jobs : Fin 2 → Job
      | 0 => .update .replace (.file [] "/site.json")
      | 1 => .update .reconcile (.file [] "/site.json")
    let store : Store := .new (.steady ⟨0⟩ 1)
    ∃ past g a p b q next later, Run jobs (start store (files "T")) past g ∧
      Load jobs store (files "T") past 0 a p next ∧ Load jobs store (files "T") past 1 b q later ∧
      next.version = 1 ∧ later.version = 2 ∧ a < p ∧ p < b ∧ b < q := by
  intro files jobs store
  let origin : Origin := .file [] "/site.json"
  have hput : jobs 0 = .update .replace (.file [] "/site.json") := rfl
  have hpatch : jobs 1 = .update .reconcile (.file [] "/site.json") := rfl
  have good (title : String) (h : (origin.site? (files title)).isSome) :
      ∃ site, origin.site? (files title) = some site := Option.isSome_iff_exists.mp h
  obtain ⟨site, hsite⟩ := good "T" (by decide +kernel)
  obtain ⟨other, hother⟩ := good "U" (by decide +kernel)
  obtain ⟨_, next, g, hfirst, hholder, hloaded, hnext, hg⟩ :=
    Run.load (g := start store (files "T")) .nil hput rfl rfl rfl (fun _ => ⟨id, id⟩) hsite
  have hfree : g.system.Free := by
    rw [hg]
    exact System.Free.enter (fun _ => ⟨id, id⟩) id id _
  have hfirst0 : g.system.phase 0 = .updated site next := by rw [hg, System.phase_enter_self]
  have hfirst1 : g.system.phase 1 = .idle := by
    rw [hg, System.phase_enter_of_ne _ _ _ (by decide)]
    rfl
  let edited : Gated (Fin 2) := { g with system := { g.system with files := files "U" } }
  obtain ⟨_, later, t, hsecond, -, -, hlater, ht⟩ :=
    Run.load (g := edited) (i := 1) (hfirst.snoc (.edit (files "U"))) hpatch hfirst1
      (hloaded 1 (by decide)) hholder hfree hother
  have hstored0 : (t.system.phase 0).stored? = some next := by
    rw [ht, System.phase_enter_of_ne _ _ _ (by decide)]
    exact congrArg Phase.stored? hfirst0
  have hstored1 : (t.system.phase 1).stored? = some later := by
    rw [ht, System.phase_enter_self]
    rfl
  obtain ⟨-, -, hloads, horder⟩ := Run.loads_in_order hsecond
  obtain ⟨a, p, hload⟩ := hloads 0 next trivial hstored0
  obtain ⟨b, q, hreload⟩ := hloads 1 later trivial hstored1
  have hone : next.version = 1 := by
    rw [← Except.ok.inj hnext]
    rfl
  have hstore : edited.system.store = (store.put .replace "file:/site.json" site).2 :=
    congrArg System.store hg
  have htwo : later.version = 2 := by
    rw [← Except.ok.inj hlater, hstore]
    rfl
  obtain ⟨hversions, hreads⟩ := horder 0 1 a b p q next later hload hreload
  obtain ⟨hap, hpb, hbq, -⟩ := hreads (hversions.mp (by rw [hone, htwo]; decide))
  exact ⟨_, t, a, p, b, q, next, later, hsecond, hload, hreload, hone, htwo, hap, hpb, hbq⟩

end Main

end Gated

end DocSite
