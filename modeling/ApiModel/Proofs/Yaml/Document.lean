import ApiModel.Proofs.Yaml.Lines
import ApiModel.Proofs.Yaml.Parse

/-!
# Reading a document back

A mapping is written under a comment, line by line.

Principal result: `ofText?_documentText` — **the text is read back to the node of the mapping**.
-/

namespace ApiModel.Yaml

/-- The lines of a mapping under a comment. -/
def documentText (comment : String) (es : List (String × Block)) : String :=
  "#" ++ comment ++ String.join ((Block.entryLines 0 es).map (·.text)) ++ "\n"

variable {line column : Nat} {lines : List Line} {es : List (String × Block)} {comment : String}

/-! ## Lines -/

theorem isLine_text {v : Inline} (h : v.Written) : IsLine v.text.toList := by
  cases v with
  | plain s =>
    obtain ⟨c, cs, -, hadmitted, hline, -⟩ := parts_of_isPlainForm h
    exact fun d hd => ⟨hadmitted d hd, hline d hd⟩
  | quoted s => exact isLine_quote h
  | list ss =>
    have hmore : ∀ ss : List String, (∀ s ∈ ss, Quotable s.toList) → IsLine (Inline.moreText ss) := by
      intro ss hss d hd
      obtain ⟨s, hs, hd⟩ := List.mem_flatMap.1 hd
      rcases List.mem_cons.1 hd with rfl | hd
      · decide
      · exact isLine_quote (hss s hs) d hd
    have hitems : IsLine (Inline.itemsText ss) := by
      cases ss with
      | nil => exact fun d hd => absurd hd List.not_mem_nil
      | cons s ss =>
        obtain ⟨hs, hss⟩ := List.forall_mem_cons.1 h
        exact (isLine_quote hs).append (hmore ss hss)
    rw [Inline.toList_list]
    exact List.forall_mem_cons.2 ⟨by decide, hitems.append (by decide)⟩

theorem isLine_body {l : Line} (h : l.Written) : IsLine l.body.toList := by
  have hdash : IsLine l.dashText := by
    unfold Line.dashText
    split <;> decide
  have hkey : IsLine (l.key.toList ++ [':']) := by
    refine IsLine.append (fun c hc => ?_) (by decide)
    have hc := isWordChar_of_isKeyChar (h.key.2.1 c hc)
    exact ⟨isAdmitted_of_isWordChar hc, isLineEnd_of_isWordChar hc⟩
  have hvalue : IsLine (Line.valueText l.value) := by
    cases hv : l.value with
    | none => exact fun d hd => absurd hd List.not_mem_nil
    | some v => exact List.forall_mem_cons.2 ⟨by decide, isLine_text (h.value v hv)⟩
  rw [Line.toList_body]
  exact hdash.append (hkey.append hvalue)

theorem Line.toList_text (l : Line) :
    l.text.toList = '\n' :: (List.replicate l.start ' ' ++ l.body.toList) := by
  simp [text]

theorem toList_documentText (comment : String) (es : List (String × Block)) :
    (documentText comment es).toList = '#' :: (comment.toList ++
      ((Block.entryLines 0 es).flatMap (·.text.toList) ++ ['\n'])) := by
  simp [documentText, List.flatMap_map]

/-- The cells of lines behind some line of a text. -/
theorem cellsFrom_lines (h : ∀ l ∈ lines, l.Written) :
    cellsFrom line column (lines.flatMap (·.text.toList) ++ ['\n']) =
      newline line column (startOf lines) ++ rows (line + 1) lines := by
  induction lines generalizing line column with
  | nil => rfl
  | cons l lines ih =>
    obtain ⟨hl, hlines⟩ := List.forall_mem_cons.1 h
    rw [List.flatMap_cons, Line.toList_text, List.append_assoc, List.cons_append, List.append_assoc,
      cellsFrom_newline, cellsFrom_row _ _ (isLine_body hl).onOneLine, ih hlines]
    rfl

/-! ## Documents -/

theorem skip_comment {cs : List Char} {rest : List Cell} (h : OnOneLine cs) (inFlow keyAllowed : Bool) :
    Lexer.skip inFlow keyAllowed true (row line column cs ++ rest) =
      Lexer.skip inFlow keyAllowed true rest := by
  induction cs generalizing column with
  | nil => rfl
  | cons c cs ih =>
    obtain ⟨hc, hcs⟩ := List.forall_mem_cons.1 h
    simp only [isLineEnd, Bool.or_eq_false_iff] at hc
    rw [row_cons, List.cons_append, Lexer.skip, if_neg (by simp [hc.1.1]), if_pos rfl]
    exact ih hcs

/-- All characters of lines may stand in a text. -/
theorem admitted_lines (h : ∀ l ∈ lines, l.Written) :
    ∀ c ∈ lines.flatMap (·.text.toList), isAdmitted c = true := by
  intro c hc
  obtain ⟨l, hl, hc⟩ := List.mem_flatMap.1 hc
  rw [Line.toList_text, List.mem_cons, List.mem_append] at hc
  obtain rfl | hc | hc := hc
  · decide
  · rw [List.eq_of_mem_replicate hc]
    decide
  · exact (isLine_body (h l hl) c hc).1

/-- **The tokens of a document are those of its lines.** -/
theorem tokens?_documentText (hcomment : IsLine comment.toList) (hwritten : Block.EntriesWritten es) :
    tokens? (documentText comment es) = some (tokensFrom [] (Block.entryLines 0 es)) := by
  have hlines := Block.written_entryLines es hwritten 0
  have hordered : Ordered (Block.entryLines 0 es) := by
    have h := Block.ordered_entries es hwritten (startsBy_nil 0) trivial
    rwa [List.append_nil] at h
  have htext := toList_documentText comment es
  generalize Block.entryLines 0 es = lines at *
  have hbegins := begins_rows 1 hlines
  have hadmitted : (documentText comment es).toList.all isAdmitted = true := by
    rw [htext, List.all_eq_true]
    exact List.forall_mem_cons.2 ⟨by decide, List.forall_mem_append.2 ⟨fun c hc => (hcomment c hc).1,
      List.forall_mem_append.2 ⟨admitted_lines hlines, List.forall_mem_singleton.2 rfl⟩⟩⟩
  have hcells : cells (documentText comment es) = ⟨'#', 0, 0⟩ :: (row 0 1 comment.toList ++
      (newline 0 (1 + comment.toList.length) (startOf lines) ++ rows 1 lines)) := by
    unfold cells
    rw [htext, ← cellsFrom_lines hlines, ← cellsFrom_row _ _ hcomment.onOneLine]
    exact cellsFrom_cons rfl _
  -- the comment and the indentation of the first line are skipped
  have hskip : Lexer.skip false true false (cells (documentText comment es)) = (true, rows 1 lines) := by
    rw [hcells, Lexer.skip]
    show Lexer.skip false true true _ = _
    rw [skip_comment hcomment.onOneLine]
    exact Lexer.skip_newline (1 + comment.toList.length) hbegins true _
  have hread := Lexer.Reads.skip (l := {}) hskip hbegins (by rw [hcells]; simp; omega)
    (Lexer.reads_rows (Lexer.at_start 1) rfl hlines hordered)
  unfold tokens?
  rw [if_pos hadmitted]
  exact hread _ (Nat.lt_succ_self _)

/-- **The text of a document is read back.** -/
theorem ofText?_documentText (hcomment : IsLine comment.toList) (hne : es ≠ [])
    (hwritten : Block.EntriesWritten es) :
    Document.ofText? (documentText comment es) = some { root := some (Block.mapping es).node } := by
  have htokens : tokens? (documentText comment es) = some (Block.mapping es).tokens := by
    obtain ⟨key, b, es, rfl⟩ : ∃ key b more, es = (key, b) :: more := by
      cases es with
      | nil => exact absurd rfl hne
      | cons e es => exact ⟨e.1, e.2, es, rfl⟩
    have hentries := Block.tokensFrom_entries ((key, b) :: es) hwritten [] (startsBy_nil 0)
    rw [List.append_nil] at hentries
    rw [tokens?_documentText hcomment hwritten, Block.entryLines_cons,
      tokensFrom_mapping (fun n hn => by cases hn), ← Block.entryLines_cons, hentries]
    rfl
  unfold Document.ofText?
  rw [htokens]
  simp only [Option.bind_eq_bind, Option.bind_some, Reader.run_document]
  rfl

end ApiModel.Yaml
