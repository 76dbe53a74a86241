import ApiModel.Proofs.Yaml.FlowList

/-!
# Lexing lines

The lexer finds in the lines of a document the tokens that they have.

Principal result: `reads_rows` — **lines are read to their tokens**.
-/

namespace ApiModel.Yaml

/-! ## Cells -/

namespace Line

/-- What stands in front of the key. -/
def dashText (l : Line) : List Char := if l.dash then ['-', ' '] else []

/-- What stands behind the colon. -/
def valueText (value : Option Inline) : List Char := value.elim [] fun v => ' ' :: v.text.toList

theorem toList_body (l : Line) :
    l.body.toList = l.dashText ++ ((l.key.toList ++ [':']) ++ valueText l.value) := by
  unfold body dashText valueText
  rw [String.toList_append, String.toList_append, String.toList_append]
  cases l.dash <;> cases l.value <;> simp

theorem start_dashText {l : Line} (h : l.Written) : l.start + l.dashText.length = l.column := by
  unfold start dashText
  cases hdash : l.dash with
  | true =>
    have hcolumn := h.dash hdash
    simp
    omega
  | false => rfl

end Line

/-- Where the first line begins. -/
def startOf (lines : List Line) : Nat := (lines.head?.map (·.start)).getD 0

/-- The cells of lines behind the indentation of the first one. -/
def rows (line : Nat) : List Line → List Cell
  | [] => []
  | l :: rest => row line l.start l.body.toList ++
      (newline line (l.start + l.body.toList.length) (startOf rest) ++ rows (line + 1) rest)

theorem head_rows {lines : List Line} {line : Nat} (h : ∀ l ∈ lines, l.Written) {c : Cell}
    (hc : c ∈ (rows line lines).head?) : isGap c.char = false ∧ c.char ≠ '#' ∧
      ∃ l ∈ lines.head?, c.column = l.start := by
  cases lines with
  | nil => cases hc
  | cons l rest =>
    obtain ⟨a, cs, hcs, hchars⟩ := (h l (List.mem_cons_self ..)).key.exists_cons
    rw [rows, Line.toList_body, hcs] at hc
    cases hdash : l.dash with
    | true =>
      simp only [Line.dashText, hdash, if_true, List.cons_append, row_cons, List.head?_cons,
        Option.mem_some] at hc
      subst hc
      exact ⟨rfl, by simp, l, rfl, rfl⟩
    | false =>
      simp only [Line.dashText, hdash, Bool.false_eq_true, if_false, List.nil_append, List.cons_append,
        row_cons, List.head?_cons, Option.mem_some] at hc
      subst hc
      have ha := hchars a (List.mem_cons_self ..)
      exact ⟨isGap_of_isWordChar ha, ne_of_isWordChar ha rfl, l, rfl, rfl⟩

theorem begins_rows {lines : List Line} (line : Nat) (h : ∀ l ∈ lines, l.Written) :
    Begins (rows line lines) := fun _ hc =>
  let ⟨hgap, hcomment, _⟩ := head_rows h hc
  ⟨hgap, hcomment⟩

/-! ## Reading -/

namespace Lexer

variable {l : Lexer} {ts us : List Token} {open_ : List Nat} {line column : Nat} {rest : List Cell}

/-- Behind a key its column is that of the innermost block. -/
theorem opened_closed (open_ : List Nat) (column : Nat) :
    ∃ more, opened (closed open_ column) column = column :: more := by
  have hhead : ∀ n ∈ (closed open_ column).head?, n ≤ column := head_closed
  unfold opened opens
  cases hclosed : closed open_ column with
  | nil => exact ⟨[], rfl⟩
  | cons n more =>
    rw [hclosed] at hhead
    have hn := hhead n rfl
    by_cases hlt : n < column
    · exact ⟨n :: more, by simp [hlt]⟩
    · obtain rfl : n = column := by omega
      exact ⟨more, by simp⟩

theorem begins_value (line column : Nat) {v : Inline} (h : v.Written) (tail : List Cell) :
    Begins (row line column v.text.toList ++ tail) := by
  cases v with
  | plain s =>
    obtain ⟨a, cs, hcs, -, hline, -, hblank, hrun⟩ := parts_of_isPlainForm h
    unfold Inline.text
    rw [hcs] at hline hrun ⊢
    have hgap : isGap a = false := by
      rw [isGap_of_onOneLine (hline a (List.mem_cons_self ..)), hblank]
    exact begins_cons hgap (ne_comment_of_isPlainRun hrun hblank)
  | quoted s =>
    unfold Inline.text
    rw [toList_quote]
    exact begins_cons rfl (by simp)
  | list ss =>
    rw [Inline.toList_list]
    exact begins_cons rfl (by simp)

/-- What follows on the line of a key is read, and the indentation of the next line is skipped. -/
theorem reads_value {n indent : Nat} {value : Option Inline} (h : At l ts (n :: open_) line)
    (hallowed : l.keyAllowed = false) (hcolumn : n < column) (hvalue : ∀ v ∈ value, v.Written)
    (hbegins : Begins rest) (hnext : value.isSome → ∀ c ∈ rest.head?, c.column ≤ n)
    (hread : ∀ l', At l' (ts ++ value.elim [] (·.tokens)) (n :: open_) (line + 1) →
      l'.keyAllowed = true → Reads l' rest us) :
    Reads l (row line column (Line.valueText value) ++
      (newline line (column + (Line.valueText value).length) indent ++ rest)) us := by
  -- behind a value that is no plain one the rest of the line is skipped
  have hskip : ∀ {l' : Lexer} {ts' : List Token} {k : Nat}, At l' ts' (n :: open_) (line + 1) →
      (∀ l₁, At l₁ ts' (n :: open_) (line + 1) → l₁.keyAllowed = true → Reads l₁ rest us) →
      Reads l' (newline line k indent ++ rest) us := fun h' hread' =>
    Reads.skip (by rw [h'.inFlow]; exact skip_newline _ hbegins _ _) hbegins (by simp)
      (hread' _ (h'.allow true) rfl)
  cases value with
  | none =>
    have hat := h.mono (Nat.le_succ line)
    exact hskip hat (by simpa using hread)
  | some v =>
    have hv := hvalue v rfl
    have hat := h.allow false
    have hcells : row line column (Line.valueText (some v)) ++
        (newline line (column + (Line.valueText (some v)).length) indent ++ rest) =
        ⟨' ', line, column⟩ :: (row line (column + 1) v.text.toList ++
          (newline line (column + 1 + v.text.toList.length) indent ++ rest)) := by
      simp [Line.valueText, row_cons, Nat.add_assoc, Nat.add_comm 1]
    rw [hcells]
    have hbegins' := begins_value line (column + 1) hv
      (newline line (column + 1 + v.text.toList.length) indent ++ rest)
    have hblank : skip l.inFlow l.keyAllowed false (⟨' ', line, column⟩ ::
        (row line (column + 1) v.text.toList ++
          (newline line (column + 1 + v.text.toList.length) indent ++ rest))) =
        (false, row line (column + 1) v.text.toList ++
          (newline line (column + 1 + v.text.toList.length) indent ++ rest)) := by
      rw [h.inFlow, hallowed]
      exact skip_spaces hbegins' false false 1
    refine Reads.skip hblank hbegins' (by simp) ?_
    cases v with
    | plain s =>
      exact reads_plain hat rfl (by omega) hv hbegins (hnext rfl) fun l' h' hallowed' =>
        hread l' (h'.mono (Nat.le_succ line)) hallowed'
    | quoted s =>
      exact reads_quoted hat rfl (by omega) hv fun l' h' _ => hskip (h'.mono (Nat.le_succ line)) hread
    | list ss =>
      exact reads_list hat rfl (by omega) hv fun l' h' _ => hskip h' hread

theorem begins_key {key : String} (h : IsKey key) (more : List Char) (tail : List Cell) :
    Begins (row line column (key.toList ++ [':'] ++ more) ++ tail) := by
  obtain ⟨a, cs, hcs, hchars⟩ := h.exists_cons
  have ha := hchars a (List.mem_cons_self ..)
  rw [hcs]
  exact begins_cons (isGap_of_isWordChar ha) (ne_of_isWordChar ha rfl)

/-- A key and what follows on its line are read. -/
theorem reads_entry {ln : Line} {indent : Nat} (h : At l ts open_ line) (hallowed : l.keyAllowed = true)
    (hkey : IsKey ln.key) (hvalue : ∀ v ∈ ln.value, v.Written) (hbegins : Begins rest)
    (hnext : ln.value.isSome → ∀ c ∈ rest.head?, c.column ≤ ln.column)
    (hread : ∀ l', At l' (ts ++ (ln.keyTokens open_ ++ ln.value.elim [] (·.tokens)))
      (ln.keyOpened open_) (line + 1) → l'.keyAllowed = true → Reads l' rest us) :
    Reads l (row line ln.column (ln.key.toList ++ [':'] ++ Line.valueText ln.value) ++
      (newline line (ln.column + (ln.key.toList ++ [':'] ++ Line.valueText ln.value).length) indent ++
        rest)) us := by
  obtain ⟨more, hmore⟩ := opened_closed open_ ln.column
  have hgap : beforeGap (row line (ln.column + (ln.key.toList ++ [':']).length) (Line.valueText ln.value) ++
      (newline line (ln.column + (ln.key.toList ++ [':'] ++ Line.valueText ln.value).length) indent ++
        rest)) = true := by
    cases ln.value <;> rfl
  have hlt : ln.column < ln.column + (ln.key.toList ++ [':']).length := by simp
  have hlength : ln.column + (ln.key.toList ++ [':'] ++ Line.valueText ln.value).length =
      ln.column + (ln.key.toList ++ [':']).length + (Line.valueText ln.value).length := by
    rw [List.length_append, Nat.add_assoc]
  rw [hlength] at hgap ⊢
  rw [row_append, List.append_assoc]
  refine reads_key h hallowed hkey hgap fun l' h' hallowed' => ?_
  rw [hmore] at h'
  refine reads_value h' hallowed' hlt hvalue hbegins hnext fun l₂ h₂ => hread l₂ ?_
  unfold Line.keyTokens Line.keyOpened
  rw [hmore]
  simpa only [List.append_assoc] using h₂

/-- **Lines are read to their tokens**, up to the end of the text. -/
theorem reads_rows {lines : List Line} (h : At l ts open_ line) (hallowed : l.keyAllowed = true)
    (hwritten : ∀ ln ∈ lines, ln.Written) (hordered : Ordered lines) :
    Reads l (rows line lines) (ts ++ tokensFrom open_ lines) := by
  induction lines generalizing l ts open_ line with
  | nil => exact Reads.done h
  | cons ln rest ih =>
    obtain ⟨hln, hrest⟩ := List.forall_mem_cons.1 hwritten
    obtain ⟨hnext, hordered⟩ := hordered
    have hcolumn : ln.value.isSome → ∀ c ∈ (rows (line + 1) rest).head?, c.column ≤ ln.column := by
      intro hsome c hc
      obtain ⟨-, -, l₁, hl₁, heq⟩ := head_rows hrest hc
      exact heq ▸ hnext hsome l₁ hl₁
    have hentry : ∀ {l' : Lexer}, At l' (ts ++ ln.dashTokens open_) (ln.dashOpened open_) line →
        l'.keyAllowed = true →
        Reads l' (row line ln.column (ln.key.toList ++ [':'] ++ Line.valueText ln.value) ++
          (newline line (ln.start + ln.body.toList.length) (startOf rest) ++ rows (line + 1) rest))
          (ts ++ tokensFrom open_ (ln :: rest)) := by
      intro l' h' hallowed'
      have hlength : ln.start + ln.body.toList.length =
          ln.column + (ln.key.toList ++ [':'] ++ Line.valueText ln.value).length := by
        rw [← Line.start_dashText hln, Line.toList_body, List.length_append, Nat.add_assoc]
      rw [hlength]
      refine reads_entry h' hallowed' hln.key hln.value (begins_rows _ hrest) hcolumn fun l₁ h₁ hallowed₁ => ?_
      have hmore := ih h₁ hallowed₁ hrest hordered
      rw [tokensFrom]
      unfold Line.tokens Line.opened
      simpa only [List.append_assoc] using hmore
    rw [rows, show row line ln.start ln.body.toList = row line ln.start ln.dashText ++
      row line ln.column (ln.key.toList ++ [':'] ++ Line.valueText ln.value) by
        rw [Line.toList_body, row_append, Line.start_dashText hln]]
    unfold Line.dashTokens Line.dashOpened at hentry
    unfold Line.dashText
    cases hdash : ln.dash with
    | false =>
      simp only [hdash, Bool.false_eq_true, if_false, List.append_nil] at hentry
      exact hentry h hallowed
    | true =>
      simp only [hdash, if_true] at hentry
      rw [if_pos rfl, List.append_assoc]
      exact reads_dash h hallowed (begins_key hln.key _ _) fun l' h' => hentry h'

end Lexer

end ApiModel.Yaml
