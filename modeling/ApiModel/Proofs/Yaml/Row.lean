import ApiModel.Yaml.Token

/-!
# Cells line by line

The cells of a text that is laid out in lines: rows of characters, and between them a line feed with the
indentation of the next row.

Principal results:

* `cellsFrom_row`, `cellsFrom_newline` — the cells of rows and of the space between them;
* `skip_newline` — between tokens the lexer skips to the next row, where a key may begin.
-/

namespace ApiModel.Yaml

/-- The character ends a line of a text. -/
def isLineEnd (c : Char) : Bool := isBreak c || c == '\r' || c == '\u0085'

/-- The text stands on one line. -/
def OnOneLine (cs : List Char) : Prop := ∀ c ∈ cs, isLineEnd c = false

instance (cs : List Char) : Decidable (OnOneLine cs) :=
  List.decidableBAll _ cs

/-- The text is a line, in characters that a text may hold. -/
def IsLine (cs : List Char) : Prop := ∀ c ∈ cs, isAdmitted c = true ∧ isLineEnd c = false

instance (cs : List Char) : Decidable (IsLine cs) :=
  List.decidableBAll _ cs

theorem IsLine.onOneLine {cs : List Char} (h : IsLine cs) : OnOneLine cs := fun c hc => (h c hc).2

theorem IsLine.append {cs ds : List Char} (hcs : IsLine cs) (hds : IsLine ds) : IsLine (cs ++ ds) :=
  List.forall_mem_append.2 ⟨hcs, hds⟩

/-! ## Rows -/

/-- The cells of a text that stands on one line. -/
def row (line column : Nat) : List Char → List Cell
  | [] => []
  | c :: cs => ⟨c, line, column⟩ :: row line (column + 1) cs

/-- A line feed and the indentation of the next line. -/
def newline (line column indent : Nat) : List Cell :=
  ⟨'\n', line, column⟩ :: row (line + 1) 0 (List.replicate indent ' ')

variable {line column : Nat} {cs ds : List Char} {rest : List Cell}

@[simp]
theorem row_nil : row line column [] = [] := rfl

theorem row_cons (c : Char) :
    row line column (c :: cs) = ⟨c, line, column⟩ :: row line (column + 1) cs := rfl

@[simp]
theorem length_row : (row line column cs).length = cs.length := by
  induction cs generalizing column with
  | nil => rfl
  | cons c cs ih => simp [row, ih]

@[simp]
theorem chars_row : chars (row line column cs) = cs := by
  induction cs generalizing column with
  | nil => rfl
  | cons c cs ih =>
    rw [row_cons]
    exact congrArg (c :: ·) ih

theorem chars_append (a b : List Cell) : chars (a ++ b) = chars a ++ chars b := List.map_append

theorem row_append :
    row line column (cs ++ ds) = row line column cs ++ row line (column + cs.length) ds := by
  induction cs generalizing column with
  | nil => rfl
  | cons c cs ih =>
    rw [List.cons_append, row_cons, row_cons, ih, List.cons_append, List.length_cons,
      Nat.add_right_comm, Nat.add_assoc]

theorem mem_row {x : Cell} (h : x ∈ row line column cs) : x.char ∈ cs := by
  have hmem : x.char ∈ chars (row line column cs) := List.mem_map_of_mem h
  rwa [chars_row] at hmem

theorem column_le_of_mem_row {x : Cell} (h : x ∈ row line column cs) : column ≤ x.column := by
  induction cs generalizing column with
  | nil => cases h
  | cons c cs ih =>
    rcases List.mem_cons.1 h with rfl | h
    · exact Nat.le_refl _
    · exact Nat.le_of_succ_le (ih h)

/-! ## Texts -/

theorem cellsFrom_cons {c : Char} (h : isLineEnd c = false) (text : List Char) :
    cellsFrom line column (c :: text) = ⟨c, line, column⟩ :: cellsFrom line (column + 1) text := by
  simp only [isLineEnd, Bool.or_eq_false_iff, beq_eq_false_iff_ne] at h
  obtain ⟨⟨hbreak, hreturn⟩, hnext⟩ := h
  rw [cellsFrom.eq_def]
  split
  · simp_all
  · simp_all
  · rename_i heq
    obtain ⟨rfl, rfl⟩ := List.cons.inj heq
    rw [if_neg (by simp [hbreak]), if_neg (by simp [hreturn, hnext])]

theorem cellsFrom_row (line column : Nat) (h : OnOneLine cs) (text : List Char) :
    cellsFrom line column (cs ++ text) =
      row line column cs ++ cellsFrom line (column + cs.length) text := by
  induction cs generalizing column with
  | nil => rfl
  | cons c cs ih =>
    obtain ⟨hc, hcs⟩ := List.forall_mem_cons.1 h
    rw [List.cons_append, cellsFrom_cons hc, ih _ hcs, row_cons, List.cons_append, List.length_cons,
      Nat.add_right_comm, Nat.add_assoc]

theorem onOneLine_replicate (n : Nat) : OnOneLine (List.replicate n ' ') := by
  intro c hc
  obtain rfl := List.eq_of_mem_replicate hc
  rfl

theorem cellsFrom_newline (indent : Nat) (text : List Char) :
    cellsFrom line column ('\n' :: (List.replicate indent ' ' ++ text)) =
      newline line column indent ++ cellsFrom (line + 1) indent text := by
  have hrow := cellsFrom_row (line + 1) 0 (onOneLine_replicate indent) text
  rw [List.length_replicate, Nat.zero_add] at hrow
  unfold newline
  rw [List.cons_append, ← hrow]
  rfl

/-! ## Gaps -/

section Gaps

variable {gap : List Cell}

theorem takeWhile_gap (hgap : ∀ x ∈ gap, isGap x.char = true) (hrest : ∀ x ∈ rest.head?, isGap x.char = false) :
    (gap ++ rest).takeWhile (isGap ·.char) = gap := by
  rw [List.takeWhile_append_of_pos hgap]
  cases rest with
  | nil => exact List.append_nil gap
  | cons d rest =>
    rw [List.takeWhile_cons_of_neg (by simp [hrest d rfl]), List.append_nil]

theorem dropWhile_gap (hgap : ∀ x ∈ gap, isGap x.char = true) (hrest : ∀ x ∈ rest.head?, isGap x.char = false) :
    (gap ++ rest).dropWhile (isGap ·.char) = rest := by
  rw [List.dropWhile_append_of_pos hgap]
  cases rest with
  | nil => rfl
  | cons d rest => exact List.dropWhile_cons_of_neg (by simp [hrest d rfl])

end Gaps

/-! ## Between tokens -/

/-- The cells are at an end or begin with something else than a gap or a comment. -/
def Begins (cells : List Cell) : Prop :=
  ∀ c ∈ cells.head?, isGap c.char = false ∧ c.char ≠ '#'

theorem begins_cons {c : Cell} (hgap : isGap c.char = false) (hcomment : c.char ≠ '#') :
    Begins (c :: rest) := by
  intro d hd
  obtain rfl := Option.some.inj hd
  exact ⟨hgap, hcomment⟩

namespace Lexer

theorem skip_of_begins (h : Begins rest) (inFlow keyAllowed : Bool) :
    skip inFlow keyAllowed false rest = (keyAllowed, rest) := by
  cases rest with
  | nil => rfl
  | cons c rest =>
    obtain ⟨hgap, hcomment⟩ := h c rfl
    simp only [isGap, isBlank, Bool.or_eq_false_iff, beq_eq_false_iff_ne] at hgap
    obtain ⟨⟨hspace, htab⟩, hbreak⟩ := hgap
    unfold skip
    simp [hbreak, hspace, htab, hcomment]

theorem skip_spaces (h : Begins rest) (inFlow keyAllowed : Bool) (n : Nat) :
    skip inFlow keyAllowed false (row line column (List.replicate n ' ') ++ rest) =
      (keyAllowed, rest) := by
  induction n generalizing column with
  | zero => exact skip_of_begins h inFlow keyAllowed
  | succ n ih =>
    rw [List.replicate_succ, row_cons, List.cons_append, skip]
    exact ih

/-- **Between tokens the lexer skips to the next row**, where a key may begin. -/
theorem skip_newline (column : Nat) (h : Begins rest) (keyAllowed : Bool) (indent : Nat) :
    skip false keyAllowed false (newline line column indent ++ rest) = (true, rest) := by
  unfold newline
  rw [List.cons_append, skip]
  show skip false (keyAllowed || !false) false _ = _
  rw [skip_spaces h]
  simp

end Lexer

end ApiModel.Yaml
