import ApiModel.Proofs.Yaml.Block

/-!
# Parsing the tokens of a document

The tokens of a block are read back to its node, whatever follows them.

Principal result: `run_node` — **the tokens of a block are read to its node**; three levels for each
token are deep enough.
-/

namespace ApiModel.Yaml

namespace Reader

variable {depth : Nat} {block unindented first : Bool} {p : Progress} {ts rest : List Token} {t : Token}

/-- A node begins with the token, and it has no properties. -/
def isStart : Token → Bool
  | .scalar .. => true
  | .flowSequenceStart => true
  | .blockSequenceStart => true
  | .blockMappingStart => true
  | _ => false

/-! ## Single tokens -/

theorem run_accept (t : Token) :
    (accept t).run { p with tokens := t :: ts } = some (true, { p with tokens := ts }) := by
  simp [accept, peek, Reader.skip]

theorem run_accept_of_ne {u : Token} (h : t ≠ u) :
    (accept u).run { p with tokens := t :: ts } = some (false, { p with tokens := t :: ts }) := by
  simp [accept, peek, h]

theorem run_atAny (stops : List Token) (p : Progress) (t : Token) (ts : List Token) :
    (atAny stops).run { p with tokens := t :: ts } =
      some (stops.contains t, { p with tokens := t :: ts }) := by
  simp [atAny, peek]

/-- A node without properties is its content. -/
theorem run_node_succ (h : isStart t = true) :
    (node (depth + 1) block unindented).run { p with tokens := t :: ts } =
      (content depth block unindented false none).run { p with tokens := t :: ts } := by
  have hanchor : (anchor?).run { p with tokens := t :: ts } = some (none, { p with tokens := t :: ts }) := by
    cases t <;> first | rfl | cases h
  have htag : (tag?).run { p with tokens := t :: ts } = some (none, { p with tokens := t :: ts }) := by
    cases t <;> first | rfl | cases h
  have hproperties : (properties).run { p with tokens := t :: ts } =
      some ((none, none), { p with tokens := t :: ts }) := by
    simp [properties, hanchor, htag]
  cases t with
  | scalar | flowSequenceStart | blockSequenceStart | blockMappingStart =>
    simp [node, peek, anchored, hproperties]
  | _ => cases h

theorem run_nodeUnless {stops : List Token} (h : stops.contains t = false) :
    (nodeUnless (depth + 1) stops block unindented).run { p with tokens := t :: ts } =
      (node depth block unindented).run { p with tokens := t :: ts } := by
  have hstops := run_atAny stops p t ts
  rw [h] at hstops
  simp [nodeUnless, hstops]

theorem run_scalar {plain : Bool} {text : String} (hdepth : 2 ≤ depth) :
    (node depth block unindented).run { p with tokens := .scalar plain text :: ts } =
      some (.scalar plain none text, { p with tokens := ts }) := by
  obtain ⟨depth, rfl⟩ := Nat.exists_eq_add_of_le' hdepth
  rw [run_node_succ rfl]
  simp [content, peek, Reader.skip, scalarTag]

/-! ## Lists on one line -/

theorem run_flowItems (ss : List String) (p : Progress) (rest : List Token)
    (hdepth : ss.length + 3 ≤ depth) :
    (flowItems depth false).run
        { p with tokens := Inline.moreItems ss ++ (.flowSequenceEnd :: rest) } =
      some (ss.map (.scalar false none ·), { p with tokens := rest }) := by
  induction ss generalizing depth with
  | nil =>
    obtain ⟨depth, rfl⟩ := Nat.exists_eq_add_of_le' (show 1 ≤ depth by omega)
    rw [flowItems]
    simp [Inline.moreItems, run_accept]
  | cons s ss ih =>
    obtain ⟨depth, rfl⟩ := Nat.exists_eq_add_of_le' (show 1 ≤ depth by omega)
    simp only [List.length_cons] at hdepth
    have hmore := ih (show ss.length + 3 ≤ depth by omega)
    have htokens : Inline.moreItems (s :: ss) ++ (.flowSequenceEnd :: rest) =
      .flowEntry :: .scalar false s :: (Inline.moreItems ss ++ (.flowSequenceEnd :: rest)) := rfl
    have hdepth : 2 ≤ depth := by omega
    rw [htokens, flowItems]
    simp [guard, run_accept, run_accept_of_ne, run_scalar hdepth, hmore]

theorem run_list (ss : List String) (hdepth : ss.length + 5 ≤ depth) :
    (node depth block unindented).run { p with tokens := (Inline.list ss).tokens ++ rest } =
      some ((Inline.list ss).node, { p with tokens := rest }) := by
  obtain ⟨depth, rfl⟩ := Nat.exists_eq_add_of_le' (show 3 ≤ depth by omega)
  have htokens : (Inline.list ss).tokens ++ rest =
      .flowSequenceStart :: (Inline.items ss ++ (.flowSequenceEnd :: rest)) := by
    simp [Inline.tokens]
  have hitems : (flowItems (depth + 1) true).run
      { p with tokens := Inline.items ss ++ (.flowSequenceEnd :: rest) } =
      some (ss.map (.scalar false none ·), { p with tokens := rest }) := by
    rw [flowItems]
    cases ss with
    | nil => simp [Inline.items, run_accept]
    | cons s ss =>
      simp only [List.length_cons] at hdepth
      have hmore := run_flowItems ss p rest (show ss.length + 3 ≤ depth by omega)
      have hdepth : 2 ≤ depth := by omega
      simp [Inline.items, run_accept_of_ne, run_scalar hdepth, hmore]
  rw [htokens, run_node_succ rfl]
  simp [content, peek, Reader.skip, hitems, Inline.node]

/-! ## Blocks -/

theorem exists_tokens (b : Block) : ∃ t ts, b.tokens = t :: ts ∧ isStart t = true := by
  match b with
  | .inline (.plain s) => exact ⟨_, _, rfl, rfl⟩
  | .inline (.quoted s) => exact ⟨_, _, rfl, rfl⟩
  | .inline (.list ss) => exact ⟨_, _, rfl, rfl⟩
  | .mapping es => exact ⟨_, _, rfl, rfl⟩
  | .items [] => exact ⟨_, _, rfl, rfl⟩
  | .items (es :: is) => exact ⟨_, _, rfl, rfl⟩

/-- A block stands where a node may be left out. -/
theorem run_nodeUnless_block {stops : List Token} (hstops : ∀ t ∈ stops, isStart t = false) (b : Block) :
    (nodeUnless (depth + 1) stops block unindented).run { p with tokens := b.tokens ++ rest } =
      (node depth block unindented).run { p with tokens := b.tokens ++ rest } := by
  obtain ⟨t, ts, hts, hstart⟩ := exists_tokens b
  rw [hts]
  refine run_nodeUnless ?_
  rw [List.contains_eq_mem, decide_eq_false_iff_not]
  intro hmem
  rw [hstops t hmem] at hstart
  cases hstart

theorem length_le_tokens (ss : List String) : ss.length + 5 ≤ 3 * (Inline.list ss).tokens.length := by
  have hmore : ∀ ss : List String, ss.length ≤ (Inline.moreItems ss).length := fun ss => by
    induction ss with
    | nil => exact Nat.le_refl _
    | cons s ss ih =>
      unfold Inline.moreItems at ih ⊢
      simp only [List.flatMap_cons, List.length_append, List.length_cons, List.length_nil]
      omega
  cases ss with
  | nil => decide
  | cons s ss =>
    have hss := hmore ss
    simp only [Inline.tokens, Inline.items, List.length_append, List.length_cons, List.length_nil]
    omega

theorem run_mapping (unindented : Bool) {ns : List (Node × Node)} {q : Progress}
    (h : (blockEntries depth).run { p with tokens := ts } = some (ns, q)) :
    (node (depth + 2) true unindented).run { p with tokens := .blockMappingStart :: ts } =
      some (.mapping ns, q) := by
  rw [run_node_succ rfl]
  simp [content, peek, Reader.skip, h]

theorem run_sequence {ns : List Node} {q : Progress}
    (h : (blockItems depth).run { p with tokens := ts } = some (ns, q)) :
    (node (depth + 2) true unindented).run { p with tokens := .blockSequenceStart :: ts } =
      some (.sequence ns, q) := by
  rw [run_node_succ rfl]
  simp [content, peek, Reader.skip, h]

mutual

/-- **The tokens of a block are read to its node.** -/
theorem run_node (b : Block) (unindented : Bool) (p : Progress) (rest : List Token) {depth : Nat}
    (hdepth : 3 * b.tokens.length ≤ depth) :
    (node depth true unindented).run { p with tokens := b.tokens ++ rest } =
      some (b.node, { p with tokens := rest }) := by
  match b with
  | .inline (.plain s) => exact run_scalar (by simp [Block.tokens, Inline.tokens] at hdepth; omega)
  | .inline (.quoted s) => exact run_scalar (by simp [Block.tokens, Inline.tokens] at hdepth; omega)
  | .inline (.list ss) => exact run_list ss (Nat.le_trans (length_le_tokens ss) hdepth)
  | .mapping es =>
    have htokens : (Block.mapping es).tokens ++ rest =
        .blockMappingStart :: (Block.entryTokens es ++ (.blockEnd :: rest)) := by
      simp [Block.tokens]
    simp only [Block.tokens, List.length_cons, List.length_append, List.length_nil] at hdepth
    obtain ⟨depth, rfl⟩ := Nat.exists_eq_add_of_le' (show 2 ≤ depth by omega)
    rw [htokens]
    exact run_mapping unindented (run_blockEntries es p rest (by omega))
  | .items [] => exact run_list [] (Nat.le_trans (length_le_tokens []) hdepth)
  | .items (es :: is) =>
    have htokens : (Block.items (es :: is)).tokens ++ rest =
        .blockSequenceStart :: (Block.itemTokens (es :: is) ++ (.blockEnd :: rest)) := by
      simp [Block.tokens]
    simp only [Block.tokens, List.length_cons, List.length_append, List.length_nil] at hdepth
    obtain ⟨depth, rfl⟩ := Nat.exists_eq_add_of_le' (show 2 ≤ depth by omega)
    rw [htokens]
    exact run_sequence (run_blockItems (es :: is) p rest (by omega))

theorem run_blockEntries (es : List (String × Block)) (p : Progress) (rest : List Token) {depth : Nat}
    (hdepth : 3 * (Block.entryTokens es).length + 1 ≤ depth) :
    (blockEntries depth).run { p with tokens := Block.entryTokens es ++ (.blockEnd :: rest) } =
      some (Block.entryNodes es, { p with tokens := rest }) := by
  obtain ⟨depth, rfl⟩ := Nat.exists_eq_add_of_le' (show 1 ≤ depth by omega)
  match es with
  | [] =>
    rw [blockEntries]
    simp [Block.entryTokens, Block.entryNodes, run_accept]
  | (key, b) :: es =>
    have htokens : Block.entryTokens ((key, b) :: es) ++ (.blockEnd :: rest) = .key ::
        .scalar true key :: .value :: (b.tokens ++ (Block.entryTokens es ++ (.blockEnd :: rest))) := by
      simp [Block.entryTokens]
    simp only [Block.entryTokens, List.length_cons, List.length_append] at hdepth
    obtain ⟨depth, rfl⟩ := Nat.exists_eq_add_of_le' (show 1 ≤ depth by omega)
    have hmore := run_blockEntries es p rest
      (show 3 * (Block.entryTokens es).length + 1 ≤ depth + 1 by omega)
    have hvalue := run_node b true p (Block.entryTokens es ++ (.blockEnd :: rest))
      (show 3 * b.tokens.length ≤ depth by omega)
    have hstops : ∀ t ∈ [Token.key, .value, .blockEnd], isStart t = false := by decide
    have hdepth : 2 ≤ depth := by omega
    rw [htokens, blockEntries]
    simp [guard, run_accept, run_accept_of_ne, run_nodeUnless, run_scalar hdepth,
      run_nodeUnless_block hstops, hvalue, hmore, Block.entryNodes]

theorem run_blockItems (is : List (List (String × Block))) (p : Progress) (rest : List Token)
    {depth : Nat} (hdepth : 3 * (Block.itemTokens is).length + 1 ≤ depth) :
    (blockItems depth).run { p with tokens := Block.itemTokens is ++ (.blockEnd :: rest) } =
      some (Block.itemNodes is, { p with tokens := rest }) := by
  obtain ⟨depth, rfl⟩ := Nat.exists_eq_add_of_le' (show 1 ≤ depth by omega)
  match is with
  | [] =>
    rw [blockItems]
    simp [Block.itemTokens, Block.itemNodes, run_accept]
  | es :: is =>
    have htokens : Block.itemTokens (es :: is) ++ (.blockEnd :: rest) = .blockEntry ::
        .blockMappingStart :: (Block.entryTokens es ++ (.blockEnd ::
          (Block.itemTokens is ++ (.blockEnd :: rest)))) := by
      simp [Block.itemTokens]
    simp only [Block.itemTokens, List.length_cons, List.length_append] at hdepth
    obtain ⟨depth, rfl⟩ := Nat.exists_eq_add_of_le' (show 3 ≤ depth by omega)
    have hmore := run_blockItems is p rest
      (show 3 * (Block.itemTokens is).length + 1 ≤ depth + 3 by omega)
    have hentries := run_mapping false (run_blockEntries es p (Block.itemTokens is ++ (.blockEnd :: rest))
      (show 3 * (Block.entryTokens es).length + 1 ≤ depth by omega))
    rw [htokens, blockItems]
    simp [guard, run_accept, run_accept_of_ne, run_nodeUnless, hentries, hmore, Block.itemNodes]

end

/-- A text of one block is a document. -/
theorem run_document (b : Block) :
    document.run { tokens := b.tokens } =
      some (some b.node, { tokens := [], handles := plainHandles }) := by
  obtain ⟨t, ts, hts, hstart⟩ := exists_tokens b
  have hroot := run_node b false { tokens := [], handles := [] ++ plainHandles } []
    (show 3 * b.tokens.length ≤ 4 * b.tokens.length + 4 by omega)
  rw [List.append_nil, hts] at hroot
  have hboundary : (atBoundary).run { tokens := t :: ts } = some (false, { tokens := t :: ts }) := by
    cases t <;> first | rfl | cases hstart
  have hdirectives : (directives (4 * (t :: ts).length + 4) false []).run { tokens := t :: ts } =
      some ([], { tokens := t :: ts }) := by
    cases t <;> first | rfl | cases hstart
  rw [hts]
  simp only [List.length_cons, List.nil_append] at hroot hdirectives
  simp [document, peek, hboundary, hdirectives, hroot, documentEnds, guard]

end Reader

end ApiModel.Yaml
