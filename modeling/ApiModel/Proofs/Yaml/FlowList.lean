import ApiModel.Proofs.Yaml.Entry

/-!
# Lexing a list on one line

A list of quoted texts between brackets.  Inside, a text might be a key at any item, but no place requires
one.

Principal result: `reads_list` — **a list is read to its end**.
-/

namespace ApiModel.Yaml

/-! ## Texts -/

namespace Inline

/-- The items of a list behind the first one, as they are written. -/
def moreText (ss : List String) : List Char := ss.flatMap fun s => ',' :: (Json.quote s).toList

/-- The items of a list, as they are written. -/
def itemsText : List String → List Char
  | [] => []
  | s :: ss => (Json.quote s).toList ++ moreText ss

theorem toList_compactItems (ss : List String) :
    (Json.compactItems (ss.map .str)).toList = itemsText ss := by
  induction ss with
  | nil => rfl
  | cons s ss ih =>
    cases ss with
    | nil => simp [Json.compactItems, Json.compact, itemsText, moreText]
    | cons t ss =>
      rw [List.map_cons, List.map_cons, Json.compactItems, ← List.map_cons, String.toList_append,
        String.toList_append, ih]
      simp [itemsText, moreText, Json.compact]

theorem toList_list (ss : List String) :
    (Inline.list ss).text.toList = '[' :: (itemsText ss ++ [']']) := by
  show ("[" ++ Json.compactItems (ss.map .str) ++ "]").toList = _
  rw [String.toList_append, String.toList_append, toList_compactItems]
  rfl

end Inline

namespace Lexer

/-- Inside a list that is no item of another one. -/
structure InList (l : Lexer) (ts : List Token) (open_ : List Nat) (line : Nat) : Prop where
  tokens : l.tokens = ts
  indents : l.indent :: l.outerIndents = columns open_
  candidate : ∀ k ∈ l.candidate, k.required = false
  flow : l.outerCandidates = [none]
  before : ∀ a b, .candidate a b ∈ l.entries → a < line

variable {l : Lexer} {ts us : List Token} {open_ : List Nat} {line next column : Nat} {c : Cell}
  {rest : List Cell}

/-! ## Brackets -/

/-- A bracket opens a list. -/
theorem At.openFlow (h : At l ts open_ line) (hallowed : l.keyAllowed = false) (c : Cell) (t : Token) :
    ∃ l', l.openFlow c t = some l' ∧ InList l' (ts ++ [t]) open_ line := by
  have hnote : l.noteCandidate c = some l := by
    unfold noteCandidate
    rw [if_neg (by simp [hallowed])]
  have hopen : l.openFlow c t = some ({ l with
      candidate := none
      outerCandidates := l.candidate :: l.outerCandidates
      keyAllowed := true }.emit t) := by
    unfold Lexer.openFlow
    rw [hnote]
    rfl
  exact ⟨_, hopen, {
    tokens := by
      rw [tokens_emit, ← h.tokens]
      rfl
    indents := h.indents
    candidate := by simp [Lexer.emit]
    flow := by simp [Lexer.emit, h.candidate, h.flow]
    before := fun a b hmem => h.before a b (by simpa [Lexer.emit] using hmem) }⟩

namespace InList

theorem inFlow (h : InList l ts open_ line) : l.inFlow = true := by
  simp [Lexer.inFlow, h.flow]

theorem close (h : InList l ts open_ line) (column : Int) : l.close column = l := by
  unfold Lexer.close
  rw [if_pos h.inFlow]

theorem emit (h : InList l ts open_ line) (t : Token) : InList (l.emit t) (ts ++ [t]) open_ line where
  tokens := by rw [tokens_emit, h.tokens]
  indents := h.indents
  candidate := h.candidate
  flow := h.flow
  before := fun a b hmem => h.before a b (by simpa [Lexer.emit] using hmem)

theorem allow (h : InList l ts open_ line) (keyAllowed : Bool) :
    InList { l with keyAllowed } ts open_ line where
  tokens := h.tokens
  indents := h.indents
  candidate := h.candidate
  flow := h.flow
  before := h.before

theorem forget (h : InList l ts open_ line) : InList { l with candidate := none } ts open_ line where
  tokens := h.tokens
  indents := h.indents
  candidate := by simp
  flow := h.flow
  before := h.before

theorem dropCandidate (h : InList l ts open_ line) :
    l.dropCandidate = some { l with candidate := none } := by
  unfold Lexer.dropCandidate
  rw [if_neg]
  simpa [Option.any_eq_true] using h.candidate

theorem expire (h : InList l ts open_ line) (c : Cell) :
    ∃ l', l.expire c = some l' ∧ InList l' ts open_ line := by
  have hfree := h.candidate
  have hflow := h.flow
  have hforget := h.forget
  obtain ⟨entries, indent, outerIndents, candidate, outerCandidates, keyAllowed⟩ := l
  obtain rfl : outerCandidates = [none] := hflow
  cases candidate with
  | none => exact ⟨_, rfl, h⟩
  | some k =>
    have hk : k.required = false := hfree k rfl
    cases hstale : Candidate.isStale k c with
    | true => exact ⟨_, by simp [Lexer.expire, hk, hstale], hforget⟩
    | false => exact ⟨_, by simp [Lexer.expire, hk, hstale], h⟩

/-- An item may be a key, but nothing requires it. -/
theorem node (h : InList l ts open_ line) (hc : c.line < line) (t : Token) :
    ∃ l', l.node c t = some l' ∧ InList l' (ts ++ [t]) open_ line := by
  unfold Lexer.node noteCandidate
  rw [h.dropCandidate]
  split
  · refine ⟨_, rfl, InList.emit ?_ t⟩
    exact {
      tokens := by
        rw [← h.tokens]
        simp [Lexer.tokens]
      indents := h.indents
      candidate := by simp [h.inFlow]
      flow := h.flow
      before := by
        intro a b hmem
        rcases List.mem_cons.1 hmem with heq | hmem
        · obtain ⟨rfl, -⟩ := Entry.candidate.inj heq
          exact hc
        · exact h.before a b hmem }
  · exact ⟨_, rfl, (h.allow false).emit t⟩

/-- A bracket closes a list. -/
theorem closeFlow (h : InList l ts open_ line) (t : Token) :
    ∃ l', l.closeFlow t = some l' ∧ l'.keyAllowed = false ∧ At l' (ts ++ [t]) open_ line := by
  have hclose : l.closeFlow t = some ({ l with
      candidate := none
      outerCandidates := []
      keyAllowed := false }.emit t) := by
    unfold Lexer.closeFlow
    rw [h.dropCandidate]
    simp [h.flow]
  exact ⟨_, hclose, rfl, {
    tokens := by
      rw [tokens_emit, ← h.tokens]
      rfl
    indents := h.indents
    candidate := rfl
    flow := rfl
    before := fun a b hmem => h.before a b (by simpa [Lexer.emit] using hmem) }⟩

end InList

/-! ## Items -/

/-- Inside a list a token is cut off with no block in the way. -/
theorem reads_inList {cells : List Cell} (h : InList l ts open_ next) (hbegins : Begins (c :: rest))
    (hlength : cells.length ≤ rest.length)
    (hread : ∀ l₁, InList l₁ ts open_ next → ∃ l₂, l₁.token c rest = some (l₂, cells) ∧
      Reads l₂ cells us) : Reads l (c :: rest) us := by
  obtain ⟨l₁, hexpire, h₁⟩ := h.expire c
  obtain ⟨l₂, htoken, hread⟩ := hread l₁ h₁
  rw [← h₁.close c.column] at htoken
  exact Reads.token hbegins hexpire htoken hlength hread

theorem reads_listItem {s : String} (h : InList l ts open_ next) (hline : line < next)
    (hs : Quotable s.toList)
    (hread : ∀ l', InList l' (ts ++ [.scalar false s]) open_ next → Reads l' rest us) :
    Reads l (row line column (Json.quote s).toList ++ rest) us := by
  rw [toList_quote, row_cons, List.cons_append]
  refine reads_inList h (begins_cons rfl (by simp)) (show rest.length ≤ _ by simp) fun l₁ h₁ => ?_
  obtain ⟨l₂, hnode, h₂⟩ := h₁.node (c := ⟨'"', line, column⟩) hline (.scalar false s)
  rw [← String.ofList_toList (s := s)] at hnode
  exact ⟨l₂, token_quote rfl (quoted?_row _ _ _ (by omega) hs) hnode, hread l₂ h₂⟩

theorem reads_moreItems (ss : List String) (h : InList l ts open_ next) (hline : line < next)
    (hss : ∀ s ∈ ss, Quotable s.toList)
    (hread : ∀ l', At l' (ts ++ (Inline.moreItems ss ++ [.flowSequenceEnd])) open_ next →
      l'.keyAllowed = false → Reads l' rest us) :
    Reads l (row line column (Inline.moreText ss ++ [']']) ++ rest) us := by
  induction ss generalizing l ts column with
  | nil =>
    refine reads_inList (c := ⟨']', line, column⟩) h (begins_cons rfl (by simp)) (Nat.le_refl _)
      fun l₁ h₁ => ?_
    obtain ⟨l₂, hclose, hallowed, h₂⟩ := h₁.closeFlow .flowSequenceEnd
    exact ⟨l₂, token_closeList rfl hclose, hread l₂ h₂ hallowed⟩
  | cons s ss ih =>
    obtain ⟨hs, hss⟩ := List.forall_mem_cons.1 hss
    have hcells : row line column (Inline.moreText (s :: ss) ++ [']']) ++ rest =
        ⟨',', line, column⟩ :: (row line (column + 1) (Json.quote s).toList ++
          (row line (column + 1 + (Json.quote s).toList.length) (Inline.moreText ss ++ [']']) ++ rest)) := by
      rw [← List.append_assoc, ← row_append]
      simp [Inline.moreText, row_cons]
    rw [hcells]
    refine reads_inList h (begins_cons rfl (by simp)) (Nat.le_refl _) fun l₁ h₁ =>
      ⟨_, token_comma rfl h₁.dropCandidate, ?_⟩
    refine reads_listItem ((h₁.forget.allow true).emit .flowEntry) hline hs fun l₂ h₂ => ?_
    refine ih h₂ hss fun l' h' => hread l' ?_
    simpa [Inline.moreItems] using h'

/-- **A list is read to its end.** -/
theorem reads_list {n : Nat} {ss : List String} (h : At l ts (n :: open_) line)
    (hallowed : l.keyAllowed = false) (hcolumn : n < column) (hss : ∀ s ∈ ss, Quotable s.toList)
    (hread : ∀ l', At l' (ts ++ (Inline.list ss).tokens) (n :: open_) (line + 1) →
      l'.keyAllowed = false → Reads l' rest us) :
    Reads l (row line column (Inline.list ss).text.toList ++ rest) us := by
  obtain ⟨l₁, hopen, h₁⟩ := (h.mono (Nat.le_succ line)).openFlow hallowed ⟨'[', line, column⟩
    .flowSequenceStart
  have hline : line < line + 1 := Nat.lt_succ_self line
  rw [Inline.toList_list, row_cons, List.cons_append]
  refine Reads.token (begins_cons rfl (by simp)) (h.expire _)
    (h.close_value hcolumn ▸ token_openList rfl hopen) (Nat.le_refl _) ?_
  cases ss with
  | nil =>
    refine reads_moreItems [] h₁ hline hss fun l' h' => hread l' ?_
    simpa [Inline.tokens, Inline.items, Inline.moreItems] using h'
  | cons s ss =>
    obtain ⟨hs, hss⟩ := List.forall_mem_cons.1 hss
    unfold Inline.itemsText
    rw [List.append_assoc, row_append, List.append_assoc]
    refine reads_listItem h₁ hline hs fun l₂ h₂ => ?_
    refine reads_moreItems ss h₂ hline hss fun l' h' => hread l' ?_
    simpa [Inline.tokens, Inline.items] using h'

end Lexer

end ApiModel.Yaml
