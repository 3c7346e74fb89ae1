import DocSite.Proofs.Yaml.Scan
import DocSite.Yaml.Node.Reader

namespace DocSite.Yaml

def textNode (s : String) : Node := .scalar none (styleOf s == .plain) s

mutual

def Tree.node : Tree → Node
  | .text s => textNode s
  | .bool b => .scalar none true (if b then "true" else "false")
  | .sequence items => .sequence none (itemNodes items)
  | .mapping entries => .mapping none (entryNodes entries)

def itemNodes : List Tree → List Node
  | [] => []
  | item :: r => item.node :: itemNodes r

def entryNodes : List (String × Tree) → List (Node × Node)
  | [] => []
  | (key, v) :: r => (textNode key, v.node) :: entryNodes r

end

namespace NodeReader

/-- A reader takes some tokens and gives a result, whatever else is there. -/
def Takes (reader : NodeReader α) (tokens : List Token) (result : α) : Prop :=
  ∀ rest anchors handles,
    reader ⟨tokens ++ rest, anchors, handles⟩ = some (result, ⟨rest, anchors, handles⟩)

theorem takes_scalar (fuel : Nat) (flat : Bool) (text : String) (plain : Bool) :
    Takes (node (fuel + 1) true flat) [.scalar text plain] (.scalar none plain text) := by
  intro rest anchors handles
  cases flat <;> rfl

theorem takes_emptySequence (fuel : Nat) (flat : Bool) :
    Takes (node (fuel + 2) true flat) [.flowSequenceStart, .flowSequenceEnd]
      (.sequence none []) := by
  intro rest anchors handles
  cases flat <;> rfl

theorem takes_emptyMapping (fuel : Nat) (flat : Bool) :
    Takes (node (fuel + 2) true flat) [.flowMappingStart, .flowMappingEnd] (.mapping none []) := by
  intro rest anchors handles
  cases flat <;> rfl

theorem takes_sequence {fuel : Nat} {tokens : List Token} {items : List Node}
    (h : Takes (blockItems fuel) tokens items) (flat : Bool) :
    Takes (node (fuel + 1) true flat) (.sequenceStart :: tokens) (.sequence none items) := by
  intro rest anchors handles
  have hnode : node (fuel + 1) true flat ⟨.sequenceStart :: (tokens ++ rest), anchors, handles⟩ =
      (blockItems fuel ⟨tokens ++ rest, anchors, handles⟩).bind fun (items, r) =>
        some (.sequence none items, r) := by
    cases flat <;> rfl
  rw [List.cons_append, hnode, h]
  rfl

theorem takes_mapping {fuel : Nat} {tokens : List Token} {entries : List (Node × Node)}
    (h : Takes (blockEntries fuel) tokens entries) (flat : Bool) :
    Takes (node (fuel + 1) true flat) (.mappingStart :: tokens) (.mapping none entries) := by
  intro rest anchors handles
  have hnode : node (fuel + 1) true flat ⟨.mappingStart :: (tokens ++ rest), anchors, handles⟩ =
      (blockEntries fuel ⟨tokens ++ rest, anchors, handles⟩).bind fun (entries, r) =>
        some (.mapping none entries, r) := by
    cases flat <;> rfl
  rw [List.cons_append, hnode, h]
  rfl

inductive StartsNode : Token → Prop
  | scalar (text : String) (plain : Bool) : StartsNode (.scalar text plain)
  | sequence : StartsNode .sequenceStart
  | mapping : StartsNode .mappingStart
  | emptySequence : StartsNode .flowSequenceStart
  | emptyMapping : StartsNode .flowMappingStart

theorem exists_tokens_eq_cons (t : Tree) : ∃ x r, t.tokens = x :: r ∧ StartsNode x := by
  cases t with
  | text s => exact ⟨_, _, rfl, .scalar _ _⟩
  | bool b => exact ⟨_, _, rfl, .scalar _ _⟩
  | sequence items =>
    cases items with
    | nil => exact ⟨_, _, rfl, .emptySequence⟩
    | cons item r => exact ⟨_, _, rfl, .sequence⟩
  | mapping entries =>
    cases entries with
    | nil => exact ⟨_, _, rfl, .emptyMapping⟩
    | cons e r => exact ⟨_, _, rfl, .mapping⟩

theorem takes_item {fuel : Nat} {t : Tree} {item : Node} {tokens : List Token} {items : List Node}
    (h : Takes (node fuel true false) t.tokens item) (hr : Takes (blockItems fuel) tokens items) :
    Takes (blockItems (fuel + 1)) (.entry :: t.tokens ++ tokens) (item :: items) := by
  intro rest anchors handles
  obtain ⟨x, r, ht, hx⟩ := exists_tokens_eq_cons t
  rw [ht] at h ⊢
  have hitems : blockItems (fuel + 1) ⟨.entry :: (x :: r ++ (tokens ++ rest)), anchors, handles⟩ =
      (node fuel true false ⟨x :: r ++ (tokens ++ rest), anchors, handles⟩).bind fun p =>
        (blockItems fuel p.2).bind fun q => some (p.1 :: q.1, q.2) := by
    cases hx <;> rfl
  rw [List.append_assoc, List.cons_append, hitems, h]
  simp only [Option.bind_some, hr rest anchors handles]

theorem takes_blockPart {fuel : Nat} {t : Tree} {part : Node}
    (h : Takes (node fuel true true) t.tokens part) :
    Takes (blockPart (fuel + 1)) t.tokens part := by
  intro rest anchors handles
  obtain ⟨x, r, ht, hx⟩ := exists_tokens_eq_cons t
  rw [ht] at h ⊢
  have hpart : blockPart (fuel + 1) ⟨x :: r ++ rest, anchors, handles⟩ =
      node fuel true true ⟨x :: r ++ rest, anchors, handles⟩ := by
    cases hx <;> rfl
  rw [hpart, h]

theorem takes_entry {fuel : Nat} {key : String} {t : Tree} {value : Node} {tokens : List Token}
    {entries : List (Node × Node)} (h : Takes (node (fuel + 1) true true) t.tokens value)
    (hr : Takes (blockEntries (fuel + 2)) tokens entries) :
    Takes (blockEntries (fuel + 3)) (.key :: .ofText key :: .value :: t.tokens ++ tokens)
      ((textNode key, value) :: entries) := by
  intro rest anchors handles
  have hentries : blockEntries (fuel + 3)
      ⟨.key :: .ofText key :: .value :: (t.tokens ++ (tokens ++ rest)), anchors, handles⟩ =
      (blockPart (fuel + 2) ⟨t.tokens ++ (tokens ++ rest), anchors, handles⟩).bind fun p =>
        (blockEntries (fuel + 2) p.2).bind fun q => some ((textNode key, p.1) :: q.1, q.2) := rfl
  simp only [List.append_assoc, List.cons_append, hentries, takes_blockPart h (tokens ++ rest),
    Option.bind_some, hr rest anchors handles]

theorem takes_items {items : List Tree} {fuel : Nat}
    (hfuel : 2 * (itemTokens items ++ [Token.blockEnd]).length ≤ fuel)
    (h : ∀ t ∈ items, ∀ {fuel}, 2 * t.tokens.length ≤ fuel →
      Takes (node fuel true false) t.tokens t.node) :
    Takes (blockItems fuel) (itemTokens items ++ [.blockEnd]) (itemNodes items) := by
  induction items generalizing fuel with
  | nil =>
    obtain ⟨fuel, rfl⟩ : ∃ k, fuel = k + 1 := ⟨fuel - 1, by simp at hfuel; omega⟩
    exact fun _ _ _ => rfl
  | cons t r ih =>
    rw [itemTokens, List.append_assoc] at hfuel ⊢
    simp only [List.length_append, List.length_cons, List.length_nil] at hfuel ih
    obtain ⟨fuel, rfl⟩ : ∃ k, fuel = k + 1 := ⟨fuel - 1, by omega⟩
    obtain ⟨ht, hr⟩ := List.forall_mem_cons.mp h
    exact takes_item (ht (by omega)) (ih (by omega) hr)

theorem takes_entries {entries : List (String × Tree)} {fuel : Nat}
    (hfuel : 2 * (entryTokens entries ++ [Token.blockEnd]).length ≤ fuel)
    (h : ∀ e ∈ entries, ∀ {fuel}, 2 * e.2.tokens.length ≤ fuel →
      Takes (node fuel true true) e.2.tokens e.2.node) :
    Takes (blockEntries fuel) (entryTokens entries ++ [.blockEnd]) (entryNodes entries) := by
  induction entries generalizing fuel with
  | nil =>
    obtain ⟨fuel, rfl⟩ : ∃ k, fuel = k + 1 := ⟨fuel - 1, by simp at hfuel; omega⟩
    exact fun _ _ _ => rfl
  | cons e r ih =>
    rw [entryTokens, List.append_assoc] at hfuel ⊢
    simp only [List.length_append, List.length_cons, List.length_nil] at hfuel ih
    obtain ⟨fuel, rfl⟩ : ∃ k, fuel = k + 3 := ⟨fuel - 3, by omega⟩
    obtain ⟨he, hr⟩ := List.forall_mem_cons.mp h
    exact takes_entry (he (by omega)) (ih (by omega) hr)

theorem takes_node {d : Nat} {t : Tree} (h : t.Carried d) {fuel : Nat}
    (hfuel : 2 * t.tokens.length ≤ fuel) (flat : Bool) :
    Takes (node fuel true flat) t.tokens t.node := by
  induction h generalizing fuel flat with
  | text =>
    obtain ⟨fuel, rfl⟩ : ∃ k, fuel = k + 1 := ⟨fuel - 1, by simp [Tree.tokens] at hfuel; omega⟩
    exact takes_scalar fuel flat _ _
  | bool =>
    obtain ⟨fuel, rfl⟩ : ∃ k, fuel = k + 1 := ⟨fuel - 1, by simp [Tree.tokens] at hfuel; omega⟩
    exact takes_scalar fuel flat _ _
  | @sequence _ items _ ih =>
    by_cases hne : items = []
    · subst hne
      obtain ⟨fuel, rfl⟩ : ∃ k, fuel = k + 2 := ⟨fuel - 2, by simp [Tree.tokens] at hfuel; omega⟩
      exact takes_emptySequence fuel flat
    · have htokens : (Tree.sequence items).tokens =
          .sequenceStart :: (itemTokens items ++ [.blockEnd]) := by simp [Tree.tokens, hne]
      rw [htokens, List.length_cons] at hfuel
      obtain ⟨fuel, rfl⟩ : ∃ k, fuel = k + 1 := ⟨fuel - 1, by omega⟩
      rw [htokens]
      exact takes_sequence (takes_items (by omega) fun t ht _ h => ih t ht h false) flat
  | @mapping _ entries _ _ _ ih =>
    by_cases hne : entries = []
    · subst hne
      obtain ⟨fuel, rfl⟩ : ∃ k, fuel = k + 2 := ⟨fuel - 2, by simp [Tree.tokens] at hfuel; omega⟩
      exact takes_emptyMapping fuel flat
    · have htokens : (Tree.mapping entries).tokens =
          .mappingStart :: (entryTokens entries ++ [.blockEnd]) := by simp [Tree.tokens, hne]
      rw [htokens, List.length_cons] at hfuel
      obtain ⟨fuel, rfl⟩ : ∃ k, fuel = k + 1 := ⟨fuel - 1, by omega⟩
      rw [htokens]
      exact takes_mapping (takes_entries (by omega) fun e he _ h => ih e he h true) flat

theorem document_mapping {fuel : Nat} {tokens : List Token} {entries : List (Node × Node)}
    (h : Takes (node fuel true false) (.mappingStart :: tokens) (.mapping none entries))
    (rest : List Token) :
    document fuel ⟨.mappingStart :: tokens ++ rest, [], standardHandles⟩ =
      some (some (.mapping none entries), ⟨rest, [], standardHandles⟩) := by
  have hdocument : document fuel ⟨.mappingStart :: tokens ++ rest, [], standardHandles⟩ =
      (node fuel true false ⟨.mappingStart :: tokens ++ rest, [], standardHandles⟩).bind fun p =>
        some (some p.1, p.2) := rfl
  rw [hdocument, h]
  rfl

end NodeReader

/-- A document whose tree is a mapping is read back as its node. -/
theorem readDocument_write {d : Nat} {entries : List (String × Tree)} (hne : entries ≠ [])
    (h : (Tree.mapping entries).Carried d) (hd : d ≤ Scanner.depthLimit) :
    readDocument (write (.mapping entries)).toList = some (some (Tree.mapping entries).node) := by
  have hscan := scan_write hne h hd
  have hreadable : (write (.mapping entries)).toList.all isReadable := by
    rw [write, String.toList_ofList, List.all_append, all_isReadable_writeTree h,
      all_isReadable_lineEnd]
    rfl
  have hmark : (write (.mapping entries)).toList.head? ≠ some '\uFEFF' := by
    obtain ⟨x, r, hx, _, _, hmark⟩ := (starts_writeTree 0 (.mapping entries)).append
      (lineEnd (writeTree 0 (.mapping entries)))
    rw [write, String.toList_ofList, hx]
    simpa using hmark
  have htokens : (Tree.mapping entries).tokens =
      .mappingStart :: (entryTokens entries ++ [.blockEnd]) := by
    simp [Tree.tokens, hne]
  have hdocument : ∀ fuel, 2 * (Tree.mapping entries).tokens.length ≤ fuel →
      NodeReader.document fuel ⟨(Tree.mapping entries).tokens ++ [.streamEnd], [],
        NodeReader.standardHandles⟩ = some (some (Tree.mapping entries).node,
          ⟨[.streamEnd], [], NodeReader.standardHandles⟩) := by
    intro fuel hfuel
    have htakes := NodeReader.takes_node h hfuel false
    rw [htokens] at htakes ⊢
    exact NodeReader.document_mapping htakes [.streamEnd]
  rw [readDocument, if_neg hmark, hreadable, hscan]
  simp only [Bool.not_true, Bool.false_eq_true, if_false, StateT.run]
  rw [hdocument _ (by rw [List.length_append]; omega)]
  rfl

end DocSite.Yaml
