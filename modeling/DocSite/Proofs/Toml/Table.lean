import DocSite.Proofs.TextMap
import DocSite.Proofs.Value
import DocSite.Toml.Table

namespace DocSite.Toml.Slots

def below? : List String → Slots → Option Slots
  | [], slots => some slots
  | key :: path, slots =>
    match slots.lookup key with
    | some (.table _ _ below) => below? path below
    | some (.tables _ last) => below? path last
    | _ => none

def plug (table : Slots) : List String → Slots → Slots
  | [], _ => table
  | key :: path, slots =>
    match slots.lookup key with
    | some (.table closed dotted below) =>
      put slots key (.table closed dotted (plug table path below))
    | some (.tables before last) => put slots key (.tables before (plug table path last))
    | _ => slots

@[simp] theorem lookup_put (slots : Slots) (key : String) (slot : Slot) (k : String) :
    (put slots key slot).lookup k = if k = key then some slot else slots.lookup k := by
  induction slots with
  | nil => rw [put, Text.lookup_cons]
  | cons e r ih =>
    rw [put]
    split <;> rw [Text.lookup_cons, Text.lookup_cons] <;> grind

@[simp] theorem put_put (slots : Slots) (key : String) (a b : Slot) :
    put (put slots key a) key b = put slots key b := by
  induction slots with
  | nil => simp [put]
  | cons e r ih =>
    rw [put, put]
    split
    · simp [put]
    · simp_all [put]

theorem put_of_lookup {slots : Slots} {key : String} {slot : Slot}
    (h : slots.lookup key = some slot) : put slots key slot = slots := by
  induction slots with
  | nil => cases h
  | cons e r ih =>
    rw [Text.lookup_cons] at h
    rw [put]
    split at h
    case isTrue hk =>
      obtain rfl := Option.some.inj h
      rw [if_pos hk.symm, hk]
    case isFalse hk => rw [if_neg (Ne.symm hk), ih h]

variable {path : List String} {slots below table : Slots}

@[elab_as_elim]
theorem below?_ind {motive : ∀ path slots, below? path slots = some below → Prop}
    (here : motive [] below rfl)
    (table : ∀ {key path slots closed dotted t}
      (hl : slots.lookup key = some (.table closed dotted t)) (h : below? path t = some below),
      motive path t h →
        motive (key :: path) slots (by rw [below?, hl]; exact h))
    (tables : ∀ {key path slots before last} (hl : slots.lookup key = some (.tables before last))
      (h : below? path last = some below), motive path last h →
        motive (key :: path) slots (by rw [below?, hl]; exact h))
    (h : below? path slots = some below) : motive path slots h := by
  induction path generalizing slots with
  | nil =>
    obtain rfl := Option.some.inj h
    exact here
  | cons key path ih =>
    have hbelow := h
    rw [below?] at hbelow
    split at hbelow
    case h_1 hl => exact table hl hbelow (ih hbelow)
    case h_2 hl => exact tables hl hbelow (ih hbelow)
    case h_3 => cases hbelow

theorem within_eq (h : below? path slots = some below) (f : Slots → Option Slots) :
    within f path slots = (f below).map (plug · path slots) := by
  induction h using below?_ind with
  | here => simp [within, plug]
  | table hl _ ih | tables hl _ ih => simp [within, hl, ih, plug, Function.comp_def]

theorem below?_plug (h : below? path slots = some below) :
    below? path (plug table path slots) = some table := by
  induction h using below?_ind with
  | here => rfl
  | table hl _ ih | tables hl _ ih => simp [plug, hl, below?, ih]

theorem plug_self (h : below? path slots = some below) : plug below path slots = slots := by
  induction h using below?_ind with
  | here => rfl
  | table hl _ ih | tables hl _ ih => simp [plug, hl, ih, put_of_lookup hl]

theorem plug_plug (h : below? path slots = some below) (other : Slots) :
    plug other path (plug table path slots) = plug other path slots := by
  induction h using below?_ind with
  | here => rfl
  | table hl _ ih | tables hl _ ih => simp [plug, hl, ih]

theorem below?_append (h : below? path slots = some below) (key : String) :
    below? (path ++ [key]) slots = below? [key] below := by
  induction h using below?_ind with
  | here => rfl
  | table hl _ ih | tables hl _ ih => simp [below?, hl, ih]

theorem plug_append (h : below? path slots = some below) (key : String) :
    plug table (path ++ [key]) slots = plug (plug table [key] below) path slots := by
  induction h using below?_ind with
  | here => rfl
  | table hl _ ih | tables hl _ ih => simp [plug, hl, ih]

theorem below?_plug_put_table (h : below? path slots = some below) (key : String)
    (closed dotted : Bool) (t : Slots) :
    below? (path ++ [key]) (plug (put below key (.table closed dotted t)) path slots) = some t := by
  rw [below?_append (below?_plug h)]
  simp [below?]

theorem below?_plug_put_tables (h : below? path slots = some below) (key : String)
    (before : List Value) (last : Slots) :
    below? (path ++ [key]) (plug (put below key (.tables before last)) path slots) = some last := by
  rw [below?_append (below?_plug h)]
  simp [below?]

theorem plug_put_table (h : below? path slots = some below) (key : String) (closed dotted : Bool) :
    plug table (path ++ [key]) (plug (put below key (.table closed dotted [])) path slots) =
      plug (put below key (.table closed dotted table)) path slots := by
  rw [plug_append (below?_plug h), plug_plug h]
  simp [plug]

theorem plug_put_tables (h : below? path slots = some below) (key : String) (before : List Value) :
    plug table (path ++ [key]) (plug (put below key (.tables before [])) path slots) =
      plug (put below key (.tables before table)) path slots := by
  rw [plug_append (below?_plug h), plug_plug h]
  simp [plug]

structure Descends (op : List String → Slots → Option Slots) : Prop where
  table {key : String} {path : List String} {slots : Slots} {closed dotted : Bool} {below : Slots} :
    path ≠ [] → slots.lookup key = some (.table closed dotted below) →
      op (key :: path) slots =
        (op path below).map fun below => put slots key (.table closed dotted below)
  tables {key : String} {path : List String} {slots : Slots} {before : List Value} {last : Slots} :
    path ≠ [] → slots.lookup key = some (.tables before last) →
      op (key :: path) slots = (op path last).map fun last => put slots key (.tables before last)

theorem descends_declare : Descends declare where
  table hpath hl := by
    rw [declare]
    · simp [hl]
    · exact hpath
  tables hpath hl := by
    rw [declare]
    · simp [hl]
    · exact hpath

theorem descends_append : Descends append where
  table hpath hl := by
    rw [append]
    · simp [hl]
    · exact hpath
  tables hpath hl := by
    rw [append]
    · simp [hl]
    · exact hpath

theorem Descends.eq_plug {op : List String → Slots → Option Slots} (hop : Descends op)
    (h : below? path slots = some below) (key : String) :
    op (path ++ [key]) slots = (op [key] below).map (plug · path slots) := by
  induction h using below?_ind with
  | here => simp [plug]
  | table hl _ ih =>
    rw [List.cons_append, hop.table (by simp) hl, ih]
    simp [plug, hl, Function.comp_def]
  | tables hl _ ih =>
    rw [List.cons_append, hop.tables (by simp) hl, ih]
    simp [plug, hl, Function.comp_def]

section Seal

theorem seal_put (slots : Slots) (key : String) (slot : Slot) :
    Slots.seal (put slots key slot) = put (Slots.seal slots) key slot.seal := by
  induction slots with
  | nil => rfl
  | cons e r ih =>
    rw [put, Slots.seal, put]
    split <;> simp [Slots.seal, ih]

theorem seal_of_lookup (h : Slots.seal slots = slots) {key : String} {slot : Slot}
    (hl : slots.lookup key = some slot) : slot.seal = slot := by
  induction slots with
  | nil => cases hl
  | cons e r ih =>
    rw [Slots.seal, List.cons.injEq] at h
    rw [Text.lookup_cons] at hl
    split at hl
    · obtain rfl := Option.some.inj hl
      exact congrArg Prod.snd h.1
    · exact ih h.2 hl

theorem seal_below? (h : Slots.seal slots = slots) (hbelow : below? path slots = some below) :
    Slots.seal below = below := by
  induction hbelow using below?_ind with
  | here => exact h
  | table hl _ ih =>
    have hslot := seal_of_lookup h hl
    simp only [Slot.seal, Slot.table.injEq] at hslot
    exact ih hslot.2.2
  | tables hl _ ih =>
    have hslot := seal_of_lookup h hl
    simp only [Slot.seal, Slot.tables.injEq, true_and] at hslot
    exact ih hslot

theorem seal_plug (h : Slots.seal slots = slots) (ht : Slots.seal table = table)
    (path : List String) : Slots.seal (plug table path slots) = plug table path slots := by
  induction path generalizing slots with
  | nil => exact ht
  | cons key path ih =>
    rw [plug]
    split
    case h_1 hl =>
      have hslot := seal_of_lookup h hl
      simp only [Slot.seal, Slot.table.injEq] at hslot
      rw [seal_put, h, Slot.seal, hslot.1, ih hslot.2.2, hslot.2.1]
    case h_2 hl =>
      have hslot := seal_of_lookup h hl
      simp only [Slot.seal, Slot.tables.injEq, true_and] at hslot
      rw [seal_put, h, Slot.seal, ih hslot]
    case h_3 => exact h

theorem seal_plug_put (h : Slots.seal slots = slots) (hbelow : below? path slots = some below)
    {slot : Slot} (hslot : slot.seal = slot) (key : String) :
    Slots.seal (plug (put below key slot) path slots) = plug (put below key slot) path slots :=
  seal_plug h (by rw [seal_put, seal_below? h hbelow, hslot]) path

end Seal

end DocSite.Toml.Slots
