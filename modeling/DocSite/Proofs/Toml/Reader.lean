import DocSite.Proofs.Fields
import DocSite.Proofs.Schema.Restated
import DocSite.Proofs.Toml.Lexeme
import DocSite.Proofs.Toml.Table

/-!
Declarations written as TOML are read back. The lines of a document are followed one by one: a line
with a key adds a field to the table that was opened last, a header opens a table, and what a table
holds in the end says the same as the mapping it was written for.
-/

namespace DocSite

/-- A value that can be written as tables, with containers that nest no deeper than a number:
texts, truth values, sequences of mappings, and mappings that give every key once, with nulls for
fields that are not there. -/
inductive Value.Tabular : Nat → Value → Prop
  | text (n : Nat) (s : String) : Tabular n (.text s)
  | bool (n : Nat) (b : Bool) : Tabular n (.bool b)
  | list {n : Nat} {items : List Fields} :
    (∀ fields ∈ items, Tabular n (.record fields)) → Tabular (n + 1) (.list (items.map .record))
  | record {n : Nat} {fields : Fields} :
    (fields.map (·.1)).Nodup → (∀ f ∈ fields, f.2.isNull = false → Tabular n f.2) →
      Tabular (n + 1) (.record fields)

namespace Toml

section Lines

/-- The lines of a text take the reader from one document to another, whatever follows. -/
def Passes (doc : Document) (text : Rest) (after : Document) : Prop :=
  ∃ n ≤ text.length, ∀ rest k, lines? (n + k) doc (text ++ rest) = lines? k after rest

variable {doc doc' after : Document} {text text' : Rest}

theorem Passes.nil (doc : Document) : Passes doc [] doc := ⟨0, by simp, fun _ _ => by simp⟩

theorem Passes.append (h : Passes doc text doc') (h' : Passes doc' text' after) :
    Passes doc (text ++ text') after := by
  obtain ⟨n, hn, hn'⟩ := h
  obtain ⟨m, hm, hm'⟩ := h'
  refine ⟨n + m, by rw [List.length_append]; omega, fun rest k => ?_⟩
  rw [List.append_assoc, Nat.add_assoc, hn', hm']

theorem Passes.line (h : ∀ rest, line? doc (text ++ '\n' :: rest) = some (after, '\n' :: rest)) :
    Passes doc (text ++ ['\n']) after := by
  refine ⟨1, by simp, fun rest k => ?_⟩
  rw [Nat.add_comm, List.append_assoc, List.singleton_append, lines?, h]
  simp [newline?]

theorem Passes.blank (doc : Document) : Passes doc ['\n'] doc :=
  (Passes.line fun _ => rfl : Passes doc ([] ++ ['\n']) doc)

theorem Passes.lines? (h : Passes doc text after) :
    lines? (text.length + 1) doc text = some after := by
  obtain ⟨n, hn, h⟩ := h
  obtain ⟨k, hk⟩ := Nat.exists_eq_add_of_le hn
  have hlast := h [] (k + 1)
  rw [List.append_nil] at hlast
  rw [hk, Nat.add_assoc, hlast]
  rfl

theorem skipBlanks_space (s : Rest) : skipBlanks (' ' :: s) = skipBlanks s := rfl

theorem line?_of_header {s rest : Rest}
    (h : header? doc ('[' :: s) = some (after, '\n' :: rest)) :
    line? doc ('[' :: s) = some (after, '\n' :: rest) := by
  rw [line?, skipBlanks_of_head rfl]
  simp [h, skipBlanks, isBlank]

theorem line?_of_keyValue {key : String} {s rest : Rest}
    (h : keyValue? doc (writeKey key ++ s) = some (after, '\n' :: rest)) :
    line? doc (writeKey key ++ s) = some (after, '\n' :: rest) := by
  obtain ⟨c, t, hc, hblank, hcomment, hbreak, hreturn, hbracket⟩ := exists_writeKey_eq_cons key
  rw [hc, List.cons_append] at h ⊢
  rw [line?, skipBlanks_of_head hblank]
  simp [h, hcomment, hbreak, hreturn, hbracket, skipBlanks, isBlank]

theorem keyValue?_written {key : String} {v : Value} (hv : OnLine v) (doc : Document)
    (rest : Rest) :
    keyValue? doc (writeKey key ++ ' ' :: '=' :: ' ' :: (writeInline v ++ '\n' :: rest)) =
      (Slots.within (Slots.assign [key] v) doc.current doc.slots).map fun slots =>
        (⟨slots, doc.current⟩, '\n' :: rest) := by
  have hskip : skipBlanks (' ' :: '=' :: ' ' :: (writeInline v ++ '\n' :: rest)) =
      '=' :: ' ' :: (writeInline v ++ '\n' :: rest) := rfl
  have hends : EndsKey (' ' :: '=' :: ' ' :: (writeInline v ++ '\n' :: rest)) := by
    simp [EndsKey, isBareKeyChar]
  have hfuel : [key].length ≤ (writeKey key ++ ' ' :: '=' :: ' ' ::
      (writeInline v ++ '\n' :: rest)).length + 1 := by simp
  have hkey := key?_writePath (List.cons_ne_nil key []) hends (by simp [hskip]) hfuel
  rw [hskip, writePath] at hkey
  have hvalue := value?_writeInline hv (2 * (writeInline v ++ '\n' :: rest).length) rest
  rw [keyValue?, hkey]
  simp only [Option.bind_eq_bind, Option.bind_some, expect?, if_true, skipBlanks_space,
    hv.skipBlanks_writeInline, hvalue, Option.map_eq_bind]
  rfl

theorem passes_keyValue {slots below : Slots} {path : List String}
    (hbelow : slots.below? path = some below) {key : String} (hkey : below.lookup key = none)
    {v : Value} (hv : OnLine v) :
    Passes ⟨slots, path⟩ (writeKey key ++ ' ' :: '=' :: ' ' :: writeInline v ++ ['\n'])
      ⟨(below.put key (.value v)).plug path slots, path⟩ := by
  refine .line fun rest => ?_
  have hassign : Slots.assign [key] v below = some (below.put key (.value v)) := by
    simp [Slots.assign, hkey]
  rw [List.append_assoc, List.cons_append, List.cons_append, List.cons_append]
  apply line?_of_keyValue
  rw [keyValue?_written hv, Slots.within_eq hbelow, hassign]
  rfl

theorem key?_header {path : List String} (hpath : path ≠ []) (rest : Rest) :
    key? ((writePath path ++ ']' :: rest).length + 1) (writePath path ++ ']' :: rest) =
      some (path, ']' :: rest) := by
  have hends : EndsKey (']' :: rest) := by
    simp [EndsKey, isBareKeyChar]
  have hfuel : path.length ≤ (writePath path ++ ']' :: rest).length + 1 := by
    have := length_le_writePath path
    rw [List.length_append]
    omega
  exact key?_writePath hpath hends (by simp [skipBlanks, isBlank]) hfuel

theorem exists_writePath_eq_cons {path : List String} (hpath : path ≠ []) :
    ∃ c t, writePath path = c :: t ∧ isBlank c = false ∧ c ≠ '[' := by
  cases path with
  | nil => exact absurd rfl hpath
  | cons key r =>
    obtain ⟨c, t, hc, hblank, -, -, -, hbracket⟩ := exists_writeKey_eq_cons key
    cases r with
    | nil => exact ⟨c, t, hc, hblank, hbracket⟩
    | cons next r =>
      exact ⟨c, t ++ '.' :: writePath (next :: r), by simp [writePath, hc], hblank, hbracket⟩

theorem skipBlanks_writePath {path : List String} (hpath : path ≠ []) (rest : Rest) :
    skipBlanks (writePath path ++ rest) = writePath path ++ rest := by
  obtain ⟨c, t, hc, hblank, -⟩ := exists_writePath_eq_cons hpath
  rw [hc, List.cons_append, skipBlanks_of_head hblank]

theorem header?_table {path : List String} (hpath : path ≠ []) (doc : Document) (rest : Rest) :
    header? doc ('[' :: (writePath path ++ ']' :: rest)) =
      (Slots.declare path (Slots.seal doc.slots)).map fun slots => (⟨slots, path⟩, rest) := by
  have hread := key?_header hpath rest
  have hskip := skipBlanks_writePath hpath (']' :: rest)
  obtain ⟨c, t, hc, -, hbracket⟩ := exists_writePath_eq_cons hpath
  rw [hc] at hread hskip ⊢
  rw [List.cons_append] at hread hskip ⊢
  rw [header?]
  · simp only [hskip, hread, Option.bind_eq_bind, Option.bind_some, expect?, if_true,
      Option.map_eq_bind]
    rfl
  · intro r h
    exact hbracket (List.cons.inj h).1

theorem header?_tables {path : List String} (hpath : path ≠ []) (doc : Document) (rest : Rest) :
    header? doc ('[' :: '[' :: (writePath path ++ ']' :: ']' :: rest)) =
      (Slots.append path (Slots.seal doc.slots)).map fun slots => (⟨slots, path⟩, rest) := by
  rw [header?]
  simp only [skipBlanks_writePath hpath, key?_header hpath, Option.bind_eq_bind, Option.bind_some,
    expect?, if_true, Option.map_eq_bind]
  rfl

variable {slots below : Slots} {path : List String} {key : String}

theorem Passes.header {text : List Char}
    (h : ∀ rest, header? doc ('[' :: (text ++ rest)) = some (after, rest)) :
    Passes doc ('[' :: text ++ ['\n']) after :=
  .line fun rest => line?_of_header (h ('\n' :: rest))

theorem passes_header (current : List String) (hsealed : Slots.seal slots = slots)
    (hbelow : slots.below? path = some below) (hkey : below.lookup key = none) :
    Passes ⟨slots, current⟩ ('[' :: writePath (path ++ [key]) ++ [']', '\n'])
      ⟨(below.put key (.table true false [])).plug path slots, path ++ [key]⟩ := by
  have hdeclare : Slots.declare [key] below = some (below.put key (.table true false [])) := by
    simp [Slots.declare, hkey]
  have hread (rest : Rest) : header? ⟨slots, current⟩ ('[' :: (writePath (path ++ [key]) ++
      [']'] ++ rest)) =
        some (⟨(below.put key (.table true false [])).plug path slots, path ++ [key]⟩, rest) := by
    rw [List.append_assoc, List.singleton_append, header?_table (by simp), hsealed,
      Slots.descends_declare.eq_plug hbelow, hdeclare]
    rfl
  simpa using Passes.header hread

theorem passes_memberHeader (current : List String) (hsealed : Slots.seal slots = slots)
    (hbelow : slots.below? path = some below) {slot : Slot}
    (happend : Slots.append [key] below = some (below.put key slot)) :
    Passes ⟨slots, current⟩ ('[' :: '[' :: writePath (path ++ [key]) ++ [']', ']', '\n'])
      ⟨(below.put key slot).plug path slots, path ++ [key]⟩ := by
  have hread (rest : Rest) : header? ⟨slots, current⟩ ('[' :: ('[' :: writePath (path ++ [key]) ++
      [']', ']'] ++ rest)) =
        some (⟨(below.put key slot).plug path slots, path ++ [key]⟩, rest) := by
    rw [List.append_assoc, List.cons_append, List.cons_append, List.singleton_append,
      header?_tables (by simp), hsealed, Slots.descends_append.eq_plug hbelow, happend]
    rfl
  simpa using Passes.header hread

end Lines

section Written

theorem separated_cons (sep p : List Char) (r : List (List Char)) :
    separated sep (p :: r) = p ++ r.flatMap (sep ++ ·) := by
  induction r generalizing p with
  | nil => simp [separated]
  | cons q r ih => simp [separated, ih]

theorem dropNullItems_map_record (items : List Fields) :
    dropNullItems (items.map .record) = items.map fun fields => dropNulls (.record fields) := by
  induction items with
  | nil => rfl
  | cons fields r ih => simp [dropNullItems, ih]

def kept (fields : Fields) : Fields := fields.filter fun f => !f.2.isNull

theorem dropNulls_record (fields : Fields) :
    dropNulls (.record fields) = .record ((kept fields).map fun f => (f.1, dropNulls f.2)) := by
  rw [Value.record, dropNulls, Value.record]
  congr 1
  induction fields with
  | nil => rfl
  | cons f r ih =>
    rw [kept] at ih
    rw [List.map_cons, dropNullEntries, kept, List.filter_cons]
    cases hnull : f.2.isNull
    · simpa [hnull] using ih
    · simpa [hnull] using ih

theorem writeEntries_eq_map (path : List String) (fields : Fields) :
    writeEntries path (fields.map fun f => (.text f.1, f.2)) =
      fields.map fun f => (f.1, writeEntry (path ++ [f.1]) f.1 f.2) := by
  induction fields with
  | nil => rfl
  | cons f r ih => rw [List.map_cons, writeEntries, ih, List.map_cons]

def ordered (fields : Fields) : Fields :=
  Text.sortBy (fun a b => Text.before a.1 b.1) (kept fields)

theorem writeBody_record (path : List String) (fields : Fields) :
    writeBody path (dropNulls (.record fields)) =
      let entries := (ordered fields).map fun f => writeEntry (path ++ [f.1]) f.1 (dropNulls f.2)
      let lines := entries.filterMap Written.line?
      let tables := entries.filterMap Written.table?
      lines.flatMap (· ++ ['\n']) ++ (if lines.isEmpty || tables.isEmpty then [] else ['\n']) ++
        separated ['\n'] tables := by
  have hsort : (Text.sortBy (fun a b => Text.before a.1 b.1) ((kept fields).map fun f =>
      (f.1, writeEntry (path ++ [f.1]) f.1 (dropNulls f.2)))).map (·.2) =
      (ordered fields).map fun f => writeEntry (path ++ [f.1]) f.1 (dropNulls f.2) := by
    rw [ordered, ← Text.map_sortBy fun _ _ => rfl, List.map_map]
    rfl
  rw [dropNulls_record, Value.record, writeBody, writeEntries_eq_map, List.map_map]
  simp only [assemble, Function.comp_def, hsort]

theorem writeMembers_eq_map (path : List String) (items : List Value) :
    writeMembers path items = items.map fun v =>
      '[' :: '[' :: writePath path ++ [']', ']', '\n'] ++ writeBody path v := by
  induction items with
  | nil => rfl
  | cons v r ih => rw [writeMembers, ih, List.map_cons]

def fieldLine (f : String × Value) : List Char :=
  writeKey f.1 ++ ' ' :: '=' :: ' ' :: writeInline (dropNulls f.2)

theorem writeEntry_onLine {v : Value} (h : OnLine v) (path : List String) (key : String) :
    writeEntry path key v = .line (writeKey key ++ ' ' :: '=' :: ' ' :: writeInline v) := by
  cases h with
  | text s => rw [writeEntry, writeInline]
  | bool b => rw [writeEntry, writeInline]
  | nil => rfl

theorem writeEntry_record (path : List String) (key : String) (fields : Fields) :
    writeEntry path key (dropNulls (.record fields)) =
      .table ('[' :: writePath path ++ [']', '\n'] ++
        writeBody path (dropNulls (.record fields))) := by
  rw [Value.record, dropNulls, writeEntry, writeBody]

def memberText (path : List String) (fields : Fields) : List Char :=
  '[' :: '[' :: writePath path ++ [']', ']', '\n'] ++ writeBody path (dropNulls (.record fields))

theorem writeEntry_records (path : List String) (key : String) (fields : Fields) (r : List Fields) :
    writeEntry path key (dropNulls (.list ((fields :: r).map .record))) =
      .table (memberText path fields ++ r.flatMap (['\n'] ++ memberText path ·)) := by
  have hmapping : ∀ fields, isMapping (dropNulls (.record fields)) = true := fun _ => rfl
  rw [dropNulls, dropNullItems_map_record, writeEntry, writeMembers_eq_map, List.map_map,
    if_pos (by simp [hmapping]), List.map_cons, separated_cons, List.flatMap_map]
  rfl

end Written

section Fill

structure Filled (table : Slots) (fields : Fields) : Prop where
  sealed : Slots.seal table = table
  rel : ∀ key, Option.Rel (fun slot v => Value.Restates (Slot.toValue slot) v) (table.lookup key)
    (fields.get? key)

variable {table : Slots} {fields all : Fields} {key : String} {slot : Slot} {v : Value}

theorem Filled.nil : Filled [] [] := ⟨rfl, fun _ => .none⟩

theorem Filled.lookup_eq_none (h : Filled table fields) (hkey : fields.get? key = none) :
    table.lookup key = none := by
  have hrel := h.rel key
  rw [hkey] at hrel
  cases hl : table.lookup key with
  | none => rfl
  | some slot => simp [hl] at hrel

theorem Filled.put (h : Filled table fields) (hkey : fields.get? key = none)
    (hsealed : slot.seal = slot) (hv : Value.Restates slot.toValue v) :
    Filled (table.put key slot) (fields ++ [(key, v)]) where
  sealed := by rw [Slots.seal_put, h.sealed, hsealed]
  rel k := by
    rw [Slots.lookup_put, Fields.get?_append]
    by_cases hk : k = key
    · subst hk
      simpa [hkey] using hv
    · simpa [hk] using h.rel k

theorem entries_eq_record (table : Slots) :
    Value.mapping .plain (Slots.entries table) =
      .record (table.map fun e => (e.1, Slot.toValue e.2)) := by
  rw [Value.record]
  congr 1
  induction table with
  | nil => rfl
  | cons e r ih => rw [Slots.entries, ih, List.map_cons, List.map_cons]

theorem get?_map_toValue (table : Slots) (key : String) :
    Fields.get? (table.map fun e => (e.1, Slot.toValue e.2)) key =
      (table.lookup key).map Slot.toValue :=
  Text.lookup_map (fun _ => Slot.toValue) key table

theorem Filled.restates (h : Filled table fields) (hall : ∀ key, fields.get? key = all.given? key) :
    Value.Restates (.mapping .plain (Slots.entries table)) (.record all) := by
  rw [entries_eq_record]
  refine .record fun key => ?_
  have hrel := h.rel key
  rw [get?_map_toValue, ← hall key]
  cases hl : table.lookup key with
  | none => simpa [hl] using hrel
  | some slot => simpa [hl] using hrel

end Fill

section Body

/-- A text adds a field to the table under a path, wherever the reader stands before it. -/
def Adds (path : List String) (f : String × Value) (text : Rest) : Prop :=
  ∀ ⦃slots below : Slots⦄ (current : List String), Slots.seal slots = slots →
    slots.below? path = some below → below.lookup f.1 = none →
    ∃ slot current', slot.seal = slot ∧ Value.Restates (Slot.toValue slot) f.2 ∧
      Passes ⟨slots, current⟩ text ⟨(below.put f.1 slot).plug path slots, current'⟩

inductive Entered (v : Value) : Prop
  | line : OnLine (dropNulls v) → Value.Restates (dropNulls v) v → Entered v
  | table : (∀ path key, ∃ text, writeEntry (path ++ [key]) key (dropNulls v) = .table text ∧
      Adds path (key, v) text) → Entered v

def FillsTable (v : Value) : Prop :=
  ∀ ⦃slots : Slots⦄ ⦃path : List String⦄, Slots.seal slots = slots → slots.below? path = some [] →
    ∃ (table : Slots) (current : List String), Slots.seal table = table ∧
      Value.Restates (.mapping .plain (Slots.entries table)) v ∧
      Passes ⟨slots, path⟩ (writeBody path (dropNulls v)) ⟨table.plug path slots, current⟩

theorem exists_lines_tables {fields : Fields} (h : ∀ f ∈ fields, Entered f.2) (path : List String) :
    ∃ (lines tables : Fields) (texts : List Rest), (lines ++ tables).Perm fields ∧
      (∀ f ∈ lines, OnLine (dropNulls f.2) ∧ Value.Restates (dropNulls f.2) f.2) ∧
      List.Forall₂ (Adds path) tables texts ∧
      (fields.map fun f => writeEntry (path ++ [f.1]) f.1 (dropNulls f.2)).filterMap Written.line? =
        lines.map fieldLine ∧
      (fields.map fun f => writeEntry (path ++ [f.1]) f.1
        (dropNulls f.2)).filterMap Written.table? =
        texts := by
  induction fields with
  | nil => exact ⟨[], [], [], .refl _, by simp, .nil, rfl, rfl⟩
  | cons f r ih =>
    rw [List.forall_mem_cons] at h
    obtain ⟨lines, tables, texts, hperm, hlines, htables, hl, ht⟩ := ih h.2
    cases h.1 with
    | line hline hrestates =>
      refine ⟨f :: lines, tables, texts, hperm.cons f, ?_, htables, ?_, ?_⟩
      · exact List.forall_mem_cons.mpr ⟨⟨hline, hrestates⟩, hlines⟩
      · simp [writeEntry_onLine hline, Written.line?, hl, fieldLine]
      · simp [List.filterMap_cons, writeEntry_onLine hline, Written.table?, ht]
    | table h =>
      obtain ⟨text, htext, hadds⟩ := h path f.1
      refine ⟨lines, f :: tables, text :: texts, ?_, hlines, .cons hadds htables, ?_, ?_⟩
      · exact List.perm_middle.trans (hperm.cons f)
      · simp [List.filterMap_cons, htext, Written.line?, hl]
      · simp [htext, Written.table?, ht]

theorem get?_eq_none_of_nodup {done rest : Fields} {f : String × Value}
    (h : ((done ++ f :: rest).map (·.1)).Nodup) : done.get? f.1 = none := by
  rw [List.map_append, List.map_cons, List.nodup_append] at h
  rw [← Option.not_isSome_iff_eq_none, Fields.get?_isSome_iff]
  exact fun hmem => h.2.2 _ hmem _ List.mem_cons_self rfl

variable {base empty table : Slots} {path : List String} {done : Fields}

theorem passes_lines (hbase : base.below? path = some empty) {lines : Fields}
    (h : ∀ f ∈ lines, OnLine (dropNulls f.2) ∧ Value.Restates (dropNulls f.2) f.2)
    (hnodup : ((done ++ lines).map (·.1)).Nodup) (hfilled : Filled table done) :
    ∃ after, Filled after (done ++ lines) ∧ Passes ⟨table.plug path base, path⟩
      ((lines.map fieldLine).flatMap (· ++ ['\n'])) ⟨after.plug path base, path⟩ := by
  induction lines generalizing table done with
  | nil => exact ⟨table, by simpa using hfilled, .nil _⟩
  | cons f r ih =>
    rw [List.forall_mem_cons] at h
    have hnew := get?_eq_none_of_nodup hnodup
    rw [← List.singleton_append, ← List.append_assoc] at hnodup ⊢
    have hput : Filled (table.put f.1 (.value (dropNulls f.2))) (done ++ [f]) :=
      hfilled.put hnew rfl h.1.2
    obtain ⟨after, hafter, hpasses⟩ := ih h.2 hnodup hput
    have hline := passes_keyValue (Slots.below?_plug hbase) (hfilled.lookup_eq_none hnew) h.1.1
    rw [Slots.plug_plug hbase] at hline
    exact ⟨after, hafter, hline.append hpasses⟩

theorem Adds.passes {f : String × Value} {text : Rest} (h : Adds path f text)
    (hsealed : Slots.seal base = base) (hbase : base.below? path = some empty)
    (hnew : done.get? f.1 = none) (hfilled : Filled table done) (current : List String) :
    ∃ after current', Filled after (done ++ [f]) ∧
      Passes ⟨table.plug path base, current⟩ text ⟨after.plug path base, current'⟩ := by
  obtain ⟨slot, current', hslot, hrestates, hpasses⟩ := h current
    (Slots.seal_plug hsealed hfilled.sealed path) (Slots.below?_plug hbase)
    (hfilled.lookup_eq_none hnew)
  rw [Slots.plug_plug hbase] at hpasses
  exact ⟨_, current', hfilled.put hnew hslot hrestates, hpasses⟩

theorem passes_furtherTables (hsealed : Slots.seal base = base)
    (hbase : base.below? path = some empty) {tables : Fields} {texts : List Rest}
    (h : List.Forall₂ (Adds path) tables texts) (hnodup : ((done ++ tables).map (·.1)).Nodup)
    (hfilled : Filled table done) (current : List String) :
    ∃ after current', Filled after (done ++ tables) ∧ Passes ⟨table.plug path base, current⟩
      (texts.flatMap (['\n'] ++ ·)) ⟨after.plug path base, current'⟩ := by
  induction h generalizing table done current with
  | nil => exact ⟨table, current, by simpa using hfilled, .nil _⟩
  | cons hadds _ ih =>
    obtain ⟨next, current', hnext, hpasses⟩ :=
      hadds.passes hsealed hbase (get?_eq_none_of_nodup hnodup) hfilled current
    rw [← List.singleton_append, ← List.append_assoc] at hnodup ⊢
    obtain ⟨after, current'', hafter, hpasses'⟩ := ih hnodup hnext current'
    exact ⟨after, current'', hafter, ((Passes.blank _).append hpasses).append hpasses'⟩

theorem passes_tables (hsealed : Slots.seal base = base) (hbase : base.below? path = some empty)
    {tables : Fields} {texts : List Rest} (h : List.Forall₂ (Adds path) tables texts)
    (hnodup : ((done ++ tables).map (·.1)).Nodup) (hfilled : Filled table done)
    (current : List String) :
    ∃ after current', Filled after (done ++ tables) ∧ Passes ⟨table.plug path base, current⟩
      (separated ['\n'] texts) ⟨after.plug path base, current'⟩ := by
  cases h with
  | nil => exact ⟨table, current, by simpa using hfilled, .nil _⟩
  | cons hadds htables =>
    obtain ⟨next, current', hnext, hpasses⟩ :=
      hadds.passes hsealed hbase (get?_eq_none_of_nodup hnodup) hfilled current
    rw [← List.singleton_append, ← List.append_assoc] at hnodup ⊢
    obtain ⟨after, current'', hafter, hpasses'⟩ :=
      passes_furtherTables hsealed hbase htables hnodup hnext current'
    rw [separated_cons]
    exact ⟨after, current'', hafter, hpasses.append hpasses'⟩

theorem fillsTable_record {fields : Fields} (hkeys : (fields.map (·.1)).Nodup)
    (h : ∀ f ∈ fields, f.2.isNull = false → Entered f.2) : FillsTable (.record fields) := by
  intro base path hsealed hbase
  have hperm : (ordered fields).Perm (kept fields) := Text.perm_sortBy _ _
  have hentered : ∀ f ∈ ordered fields, Entered f.2 := by
    intro f hf
    obtain ⟨hmem, hnull⟩ := List.mem_filter.mp (hperm.mem_iff.mp hf)
    exact h f hmem (by simpa using hnull)
  obtain ⟨lines, tables, texts, hsplit, hlines, htables, hl, ht⟩ :=
    exists_lines_tables hentered path
  -- lines and tables together are the fields that are kept, so every key is new when it comes
  have hkept : ((kept fields).map (·.1)).Nodup := (List.filter_sublist.map _).nodup hkeys
  have hall : (lines ++ tables).Perm (kept fields) := hsplit.trans hperm
  have hnodup : ((lines ++ tables).map (·.1)).Nodup := (hall.map _).nodup_iff.mpr hkept
  have hnodupLines : ((([] : Fields) ++ lines).map (·.1)).Nodup :=
    ((List.sublist_append_left lines tables).map _).nodup hnodup
  obtain ⟨table, hfilled, hpasses⟩ := passes_lines hbase hlines hnodupLines Filled.nil
  obtain ⟨after, current, hafter, hpasses'⟩ :=
    passes_tables hsealed hbase htables hnodup hfilled path
  refine ⟨after, current, hafter.sealed, hafter.restates fun key => ?_, ?_⟩
  · rw [Fields.get?_of_perm hkept hall, kept, Fields.get?_filter_not_null hkeys]
  · rw [Slots.plug_self hbase] at hpasses
    rw [writeBody_record]
    simp only [hl, ht]
    refine (hpasses.append ?_).append hpasses'
    split
    · exact .nil _
    · exact .blank _

theorem entered_record {fields : Fields} (h : FillsTable (.record fields)) :
    Entered (.record fields) := by
  refine .table fun path key => ⟨_, writeEntry_record _ _ _, ?_⟩
  intro slots below current hsealed hbelow hnew
  obtain ⟨table, current', htable, hrestates, hpasses⟩ :=
    h (Slots.seal_plug_put hsealed hbelow rfl key)
      (Slots.below?_plug_put_table hbelow key true false [])
  rw [Slots.plug_put_table hbelow] at hpasses
  exact ⟨.table true false table, current', by rw [Slot.seal, htable]; rfl, hrestates,
    (passes_header current hsealed hbelow hnew).append hpasses⟩

section Members

variable {slots below : Slots} {key : String} {before : List Value}

theorem passes_member {fields : Fields} (h : FillsTable (.record fields)) (current : List String)
    (hsealed : Slots.seal slots = slots) (hbelow : slots.below? path = some below)
    (happend : Slots.append [key] below = some (below.put key (.tables before []))) :
    ∃ (table : Slots) (current' : List String), Slots.seal table = table ∧
      Value.Restates (.mapping .plain (Slots.entries table)) (.record fields) ∧
      Passes ⟨slots, current⟩ (memberText (path ++ [key]) fields)
        ⟨(below.put key (.tables before table)).plug path slots, current'⟩ := by
  obtain ⟨table, current', htable, hrestates, hpasses⟩ :=
    h (Slots.seal_plug_put hsealed hbelow rfl key)
      (Slots.below?_plug_put_tables hbelow key before [])
  rw [Slots.plug_put_tables hbelow] at hpasses
  exact ⟨table, current', htable, hrestates,
    (passes_memberHeader current hsealed hbelow happend).append hpasses⟩

theorem passes_furtherMembers {items : List Fields}
    (h : ∀ fields ∈ items, FillsTable (.record fields))
    (hsealed : Slots.seal slots = slots) (hbelow : slots.below? path = some below) {last : Slots}
    (hlast : Slots.seal last = last) (current : List String) :
    ∃ (before' : List Value) (last' : Slots) (current' : List String) (added : List Value),
      Slots.seal last' = last' ∧
      before' ++ [.mapping .plain (Slots.entries last')] =
        before ++ [.mapping .plain (Slots.entries last)] ++ added ∧
      List.Forall₂ Value.Restates added (items.map .record) ∧
      Passes ⟨(below.put key (.tables before last)).plug path slots, current⟩
        (items.flatMap (['\n'] ++ memberText (path ++ [key]) ·))
        ⟨(below.put key (.tables before' last')).plug path slots, current'⟩ := by
  induction items generalizing before last current with
  | nil => exact ⟨before, last, current, [], hlast, by simp, .nil, .nil _⟩
  | cons fields r ih =>
    rw [List.forall_mem_cons] at h
    have hslot : (Slot.tables before last).seal = .tables before last := by rw [Slot.seal, hlast]
    have happend : Slots.append [key] (below.put key (.tables before last)) =
        some ((below.put key (.tables before last)).put key
          (.tables (before ++ [.mapping .plain (Slots.entries last)]) [])) := by
      simp [Slots.append]
    obtain ⟨table, current', htable, hrestates, hpasses⟩ := passes_member h.1 current
      (Slots.seal_plug_put hsealed hbelow hslot key) (Slots.below?_plug hbelow) happend
    rw [Slots.put_put, Slots.plug_plug hbelow] at hpasses
    obtain ⟨before', last', current'', added, hlast', hitems, hadded, hpasses'⟩ :=
      ih h.2 htable current'
    refine ⟨before', last', current'', _ :: added, hlast', ?_, .cons hrestates hadded,
      ((Passes.blank _).append hpasses).append hpasses'⟩
    rw [hitems]
    simp

theorem entered_list {items : List Fields} (h : ∀ fields ∈ items, FillsTable (.record fields)) :
    Entered (.list (items.map .record)) := by
  cases items with
  | nil => exact .line .nil (.sequence .nil)
  | cons fields r =>
    rw [List.forall_mem_cons] at h
    refine .table fun path key => ⟨_, writeEntry_records _ _ _ _, ?_⟩
    intro slots below current hsealed hbelow hnew
    have hnew : below.lookup key = none := hnew
    have happend : Slots.append [key] below = some (below.put key (.tables [] [])) := by
      simp [Slots.append, hnew]
    obtain ⟨table, current', htable, hrestates, hpasses⟩ :=
      passes_member h.1 current hsealed hbelow happend
    obtain ⟨before, last, current'', added, hlast, hitems, hadded, hpasses'⟩ :=
      passes_furtherMembers h.2 hsealed hbelow htable current'
    refine ⟨.tables before last, current'', by rw [Slot.seal, hlast], ?_, hpasses.append hpasses'⟩
    rw [Slot.toValue, hitems]
    exact .sequence (.cons hrestates hadded)

end Members

theorem entered_of_tabular {n : Nat} {v : Value} (h : v.Tabular n) :
    Entered v ∧ ∀ fields, v = .record fields → FillsTable v := by
  induction h with
  | text _ s => exact ⟨.line (.text s) (.text s), nofun⟩
  | bool _ b => exact ⟨.line (.bool b) (.bool b), nofun⟩
  | list _ ih => exact ⟨entered_list fun fields hf => (ih fields hf).2 fields rfl, nofun⟩
  | record hkeys _ ih =>
    have hfills := fillsTable_record hkeys fun f hf hnull => (ih f hf hnull).1
    exact ⟨entered_record hfills, fun _ _ => hfills⟩

end Body

/-- A declaration that can be written as tables is read back from its document, but for the nulls in
it and the order of its fields. -/
theorem parse?_write {n : Nat} {fields : Fields} (h : (Value.record fields).Tabular n) :
    ∃ read, parse? (write fields).toList = some read ∧ Fields.Restates read fields := by
  have hfills : FillsTable (.record fields) := (entered_of_tabular h).2 fields rfl
  obtain ⟨table, current, _, hrestates, hpasses⟩ := @hfills [] [] rfl rfl
  have hlines := hpasses.lines?
  obtain ⟨read, hread, hrel⟩ := hrestates.fields? (Value.fields?_record fields)
  refine ⟨read, ?_, hrel⟩
  rw [write, String.toList_ofList, parse?, hlines]
  exact hread

end Toml

end DocSite
