import DocSite.Proofs.Yaml.Node
import DocSite.Proofs.Yaml.Tally
import DocSite.Yaml.Reader

namespace DocSite.Yaml

mutual

def Tree.value : Tree → Value
  | .text s => .text s
  | .bool b => .bool b
  | .sequence items => .list (itemValues items)
  | .mapping entries => .record (entryValues entries)

def itemValues : List Tree → List Value
  | [] => []
  | item :: r => item.value :: itemValues r

def entryValues : List (String × Tree) → Fields
  | [] => []
  | (key, v) :: r => (key, v.value) :: entryValues r

end

theorem resolve_of_plain {s : String} (h : styleOf s = .plain) : resolve s = .text s := by
  rcases writeText_cases (n := 1) (by decide) s with ⟨_, _, _, hreads⟩ | ⟨hs, _⟩ | ⟨hs, _⟩
  · simp only [readsAsText, Bool.and_eq_true, beq_iff_eq] at hreads
    exact hreads.1.1
  · exact absurd h hs
  · exact absurd (h.symm.trans hs) (by decide)

theorem scalarOf?_text (s : String) : scalarOf? none (styleOf s == .plain) s = some (.text s) := by
  by_cases h : styleOf s = .plain
  · rw [scalarOf?, h, beq_self_eq_true, if_pos rfl, resolve_of_plain h]
  · have hstyle : (styleOf s == .plain) = false := by simpa using h
    rw [scalarOf?, hstyle]
    rfl

theorem read_textNode (key : String) :
    KeyKind.texts.read (textNode key) = some (some (.text key)) := by
  have hkey : (textNode key).asText? = some (some key) := by
    rw [textNode, Node.asText?, scalarOf?_text]
  rw [KeyKind.read, hkey]
  rfl

theorem isMergeKey_textNode {key : String} (h : key ≠ "<<") :
    (textNode key).isMergeKey = false := by
  simp [textNode, Node.isMergeKey, h]

theorem shortTag_textNode {key : String} (h : key ≠ "<<") : (textNode key).shortTag = "!!str" := by
  by_cases hs : styleOf key = .plain
  · simp [textNode, Node.shortTag, hs, h, resolve_of_plain hs, tagOf]
  · simp [textNode, Node.shortTag, hs]

section Mapping

variable {entries : List (String × Tree)}

theorem exists_of_mem_entryNodes {e : Node × Node} (h : e ∈ entryNodes entries) :
    ∃ key v, (key, v) ∈ entries ∧ e = (textNode key, v.node) := by
  induction entries with
  | nil => simp [entryNodes] at h
  | cons f r ih =>
    rw [entryNodes, List.mem_cons] at h
    rcases h with rfl | h
    · exact ⟨f.1, f.2, List.mem_cons_self, rfl⟩
    · obtain ⟨key, v, hmem, he⟩ := ih h
      exact ⟨key, v, List.mem_cons_of_mem f hmem, he⟩

theorem isTextMapping_entryNodes (h : ∀ e ∈ entries, e.1 ≠ "<<") :
    isTextMapping (entryNodes entries) := by
  rw [isTextMapping, List.all_eq_true]
  intro e he
  obtain ⟨key, v, hmem, rfl⟩ := exists_of_mem_entryNodes he
  simp [shortTag_textNode (h _ hmem)]

theorem hasDuplicates_entryNodes (h : (entries.map Prod.fst).Nodup) :
    Node.hasDuplicates (entryNodes entries) = false := by
  induction entries with
  | nil => rfl
  | cons f r ih =>
    rw [List.map_cons, List.nodup_cons] at h
    rw [entryNodes, Node.hasDuplicates, ih h.2, Bool.or_false, List.any_eq_false]
    intro e he
    obtain ⟨key, v, hmem, rfl⟩ := exists_of_mem_entryNodes he
    have hne : key ≠ f.1 := fun hkey => h.1 (hkey ▸ List.mem_map.mpr ⟨_, hmem, rfl⟩)
    simp [textNode, Node.identity, hne]

theorem merged?_entryNodes (h : ∀ e ∈ entries, e.1 ≠ "<<") :
    Node.merged? (entryNodes entries) = some [] := by
  induction entries with
  | nil => rfl
  | cons f r ih =>
    rw [List.forall_mem_cons] at h
    rw [entryNodes, Node.merged?, isMergeKey_textNode h.1]
    exact ih h.2

theorem setEntry_of_not_mem {key : Scalar} {out : List (Scalar × Value)}
    (h : key ∉ out.map Prod.fst) (v : Value) : setEntry key v out = out ++ [(key, v)] := by
  induction out with
  | nil => rfl
  | cons e r ih =>
    rw [List.map_cons, List.mem_cons, not_or] at h
    rw [setEntry, if_neg (Ne.symm h.1), ih h.2, List.cons_append]

theorem collectEntries_entryNodes {read : Node → Option Value} {out : List (Scalar × Value)}
    (hread : ∀ e ∈ entries, read e.2.node = some e.2.value)
    (hkeys : (out.map Prod.fst ++ entries.map fun e => Scalar.text e.1).Nodup)
    (seen : List Scalar) :
    collectEntries .texts read false seen out (entryNodes entries) =
      some (out ++ (entryValues entries).map fun f => (.text f.1, f.2)) := by
  induction entries generalizing out seen with
  | nil => simp [entryNodes, entryValues, collectEntries]
  | cons f r ih =>
    rw [List.forall_mem_cons] at hread
    have hnew : Scalar.text f.1 ∉ out.map Prod.fst := by
      intro hmem
      exact (List.nodup_append.mp hkeys).2.2 _ hmem _ List.mem_cons_self rfl
    rw [entryNodes, collectEntries, read_textNode]
    simp only [Bool.false_and, Bool.false_eq_true, if_false, hread.1]
    rw [setEntry_of_not_mem hnew, ih hread.2 (by simpa using hkeys)]
    simp [entryValues]

theorem mappingEntries_entryNodes {read : Node → Option Value} (hmerge : ∀ e ∈ entries, e.1 ≠ "<<")
    (hkeys : (entries.map Prod.fst).Nodup) (hread : ∀ e ∈ entries, read e.2.node = some e.2.value) :
    mappingEntries .texts read (entryNodes entries) =
      some ((entryValues entries).map fun f => (.text f.1, f.2)) := by
  have hfilter : (entryNodes entries).filter (fun e => !e.1.isMergeKey) = entryNodes entries := by
    rw [List.filter_eq_self]
    intro e he
    obtain ⟨key, v, hmem, rfl⟩ := exists_of_mem_entryNodes he
    simp [isMergeKey_textNode (hmerge _ hmem)]
  have htexts : (([] : List (Scalar × Value)).map Prod.fst ++
      entries.map fun e => Scalar.text e.1).Nodup := by
    have := List.Pairwise.map (S := (· ≠ ·)) Scalar.text (fun _ _ => mt Scalar.text.inj) hkeys
    rwa [List.map_map] at this
  rw [mappingEntries, hasDuplicates_entryNodes hkeys, hfilter,
    collectEntries_entryNodes hread htexts, merged?_entryNodes hmerge]
  rfl

end Mapping

section Depth

theorem depth_le_itemsDepth {t : Tree} {items : List Tree} (h : t ∈ items) :
    t.node.depth ≤ Node.itemsDepth (itemNodes items) := by
  induction items with
  | nil => simp at h
  | cons item r ih =>
    rw [itemNodes, Node.itemsDepth]
    rcases List.mem_cons.mp h with rfl | h
    · exact Nat.le_max_left _ _
    · exact Nat.le_trans (ih h) (Nat.le_max_right _ _)

theorem depth_le_entriesDepth {e : String × Tree} {entries : List (String × Tree)}
    (h : e ∈ entries) :
    e.2.node.depth ≤ Node.entriesDepth (entryNodes entries) := by
  induction entries with
  | nil => simp at h
  | cons f r ih =>
    rw [entryNodes, Node.entriesDepth]
    rcases List.mem_cons.mp h with rfl | h
    · exact Nat.le_trans (Nat.le_max_right _ _) (Nat.le_max_left _ _)
    · exact Nat.le_trans (ih h) (Nat.le_max_right _ _)

end Depth

theorem mapM_itemNodes {items : List Tree} {read : Node → Option Value}
    (h : ∀ t ∈ items, read t.node = some t.value) :
    (itemNodes items).mapM read = some (itemValues items) := by
  induction items with
  | nil => rfl
  | cons item r ih =>
    rw [List.forall_mem_cons] at h
    rw [itemNodes, List.mapM_cons, h.1, ih h.2, itemValues]
    rfl

theorem exists_eq_succ_of_depth_le {t : Tree} {fuel : Nat} (h : t.node.depth ≤ fuel) :
    ∃ k, fuel = k + 1 := by
  have hpos : 0 < t.node.depth := by
    cases t <;> simp [Tree.node, textNode, Node.depth]
  exact Nat.exists_eq_add_one.mpr (Nat.lt_of_lt_of_le hpos h)

theorem valueWith_node {d : Nat} {t : Tree} (h : t.Carried d) {fuel : Nat}
    (hfuel : t.node.depth ≤ fuel) : valueWith fuel t.node = some t.value := by
  induction h generalizing fuel with
  | @text _ s _ =>
    obtain ⟨fuel, rfl⟩ := exists_eq_succ_of_depth_le hfuel
    rw [Tree.node, textNode, valueWith, scalarOf?_text]
    rfl
  | @bool _ b =>
    obtain ⟨fuel, rfl⟩ := exists_eq_succ_of_depth_le hfuel
    cases b <;> rfl
  | @sequence _ items _ ih =>
    obtain ⟨fuel, rfl⟩ := exists_eq_succ_of_depth_le hfuel
    rw [Tree.node, Node.depth] at hfuel
    rw [Tree.node, valueWith, mapM_itemNodes fun t ht =>
      ih t ht (Nat.le_trans (depth_le_itemsDepth ht) (Nat.le_of_succ_le_succ hfuel))]
    rfl
  | @mapping _ entries hkeys hnodup _ ih =>
    obtain ⟨fuel, rfl⟩ := exists_eq_succ_of_depth_le hfuel
    rw [Tree.node, Node.depth] at hfuel
    have hmerge : ∀ e ∈ entries, e.1 ≠ "<<" := fun e he => (hkeys e he).2
    rw [Tree.node, valueWith, if_pos (isTextMapping_entryNodes hmerge),
      mappingEntries_entryNodes hmerge hnodup fun e he =>
        ih e he (Nat.le_trans (depth_le_entriesDepth he) (Nat.le_of_succ_le_succ hfuel))]
    rfl

theorem mem_itemNodes {n : Node} {items : List Tree} (h : n ∈ itemNodes items) :
    ∃ t ∈ items, n = t.node := by
  induction items with
  | nil => simp [itemNodes] at h
  | cons item r ih =>
    rw [itemNodes, List.mem_cons] at h
    rcases h with rfl | h
    · exact ⟨item, List.mem_cons_self, rfl⟩
    · obtain ⟨t, ht, hn⟩ := ih h
      exact ⟨t, List.mem_cons_of_mem item ht, hn⟩

theorem Tree.Carried.aliasFree {d : Nat} {t : Tree} (h : t.Carried d) : t.node.AliasFree := by
  induction h with
  | text => exact .scalar
  | bool => exact .scalar
  | sequence _ ih =>
    apply Node.AliasFree.sequence
    intro n hn
    obtain ⟨t, ht, rfl⟩ := mem_itemNodes hn
    exact ih t ht
  | mapping _ _ _ ih =>
    constructor
    · intro e he
      obtain ⟨key, v, _, rfl⟩ := exists_of_mem_entryNodes he
      exact .scalar
    · intro e he
      obtain ⟨key, v, hmem, rfl⟩ := exists_of_mem_entryNodes he
      exact ih _ hmem

/-- A document is read back as the fields of its tree. -/
theorem parse?_write {d : Nat} {entries : List (String × Tree)} (hne : entries ≠ [])
    (h : (Tree.mapping entries).Carried d) (hd : d ≤ Scanner.depthLimit) :
    parse? (write (.mapping entries)).toList = some (entryValues entries) := by
  rw [parse?, readDocument_write hne h hd]
  simp only [h.aliasFree.withinAllowance .texts, if_true]
  cases h with
  | mapping hkeys hnodup h =>
    have hentries := mappingEntries_entryNodes (fun e he => (hkeys e he).2) hnodup fun e he =>
      valueWith_node (h e he) (Nat.le_succ_of_le (depth_le_entriesDepth he))
    simp only [Tree.node, Node.declaration?, Node.depth]
    rw [hentries]
    exact Value.fields?_record (entryValues entries)

end DocSite.Yaml
