import ApiModel.Proofs.Yaml.CoreSchema
import ApiModel.Proofs.Yaml.Row

/-!
# Plain scalars on one line

Which texts can be written without quotes behind a key.  Such a text begins with no indicator, ends in no
blank and holds neither a colon that a blank follows nor a number sign that a blank precedes; and the
schema takes it for a text.

Principal results:

* `isPlainText_iff_of_isIdentifier` — of the identifiers those can that are no reserved words;
* `plainFrom_row` — such a text is read to its end;
* `plain?_row` — and what is behind its line is left.
-/

namespace ApiModel.Yaml

/-! ## Texts -/

/-- The text goes on as one plain scalar to its end; `afterGap` says that nothing or a blank is in front. -/
def isPlainRun : (afterGap : Bool) → List Char → Bool
  | afterGap, [] => !afterGap
  | afterGap, c :: cs =>
    if isBlank c then isPlainRun true cs
    else !(afterGap && c == '#') && !(c == ':' && cs.head?.all isBlank) && isPlainRun false cs

/-- A plain scalar can begin with a character that some text follows. -/
def isPlainFirst (c : Char) (cs : List Char) : Bool :=
  if c == '-' || c == '?' || c == ':' then cs.head?.any (!isBlank ·)
  else !(isGap c || isFlowMark c ||
    ['#', '&', '*', '!', '|', '>', '\'', '"', '%', '@', '`'].contains c)

/-- The text can be written as a plain scalar behind a key. -/
def isPlainForm (cs : List Char) : Bool :=
  match cs with
  | [] => false
  | c :: rest => (c :: rest).all (fun c => isAdmitted c && !isLineEnd c) && isPlainFirst c rest &&
      isPlainRun true (c :: rest)

/-- The text can be written as a plain scalar, and stands for itself. -/
def IsPlainText (s : String) : Prop := isPlainForm s.toList = true ∧ Core.isText s = true

instance (s : String) : Decidable (IsPlainText s) :=
  inferInstanceAs (Decidable (isPlainForm s.toList = true ∧ Core.isText s = true))

/-! ## Identifiers -/

/-- The character may stand in an identifier. -/
def isWordChar (c : Char) : Bool := c.isAlphanum || c == '_'

/-- Letters, digits and underscores, and no digit in front. -/
def IsIdentifier (s : String) : Prop :=
  s.toList.head?.any (!·.isDigit) = true ∧ ∀ c ∈ s.toList, isWordChar c = true

instance (s : String) : Decidable (IsIdentifier s) :=
  letI : Decidable (∀ c ∈ s.toList, isWordChar c = true) := List.decidableBAll _ _
  inferInstanceAs (Decidable (_ ∧ _))

section Identifier

variable {c : Char} {cs : List Char}

theorem ne_of_isWordChar {d : Char} (hc : isWordChar c = true) (hd : isWordChar d = false) : c ≠ d := by
  rintro rfl
  rw [hc] at hd
  cases hd

theorem isBlank_of_isWordChar (h : isWordChar c = true) : isBlank c = false := by
  simp (disch := decide) [isBlank, ne_of_isWordChar h]

theorem isGap_of_isWordChar (h : isWordChar c = true) : isGap c = false := by
  simp (disch := decide) [isGap, isBlank_of_isWordChar h, isBreak, isSeparator, ne_of_isWordChar h]

theorem isLineEnd_of_isWordChar (h : isWordChar c = true) : isLineEnd c = false := by
  simp (disch := decide) [isLineEnd, isBreak, isSeparator, ne_of_isWordChar h]

theorem isAdmitted_of_isWordChar (h : isWordChar c = true) : isAdmitted c = true := by
  have hrange : 0x20 ≤ c.toNat ∧ c.toNat ≤ 0x7e := by
    rcases Bool.or_eq_true_iff.1 h with hletter | hunderscore
    · -- capitals, small letters and digits, by their codes
      have hletter : (decide (65 ≤ c.val ∧ c.val ≤ 90) ||
          decide (97 ≤ c.val) && decide (c.val ≤ 122) ||
          decide (48 ≤ c.val) && decide (c.val ≤ 57)) = true := hletter
      simp only [Bool.or_eq_true, Bool.and_eq_true, decide_eq_true_eq, UInt32.le_iff_toNat_le] at hletter
      rcases hletter with (⟨hlow, hhigh⟩ | ⟨hlow, hhigh⟩) | ⟨hlow, hhigh⟩ <;>
        exact ⟨Nat.le_trans (by decide) hlow, Nat.le_trans hhigh (by decide)⟩
    · obtain rfl := beq_iff_eq.1 hunderscore
      decide
  simp [isAdmitted, hrange]

theorem isPlainFirst_of_isWordChar (h : isWordChar c = true) (cs : List Char) :
    isPlainFirst c cs = true := by
  simp (disch := decide) [isPlainFirst, isGap_of_isWordChar h, isFlowMark, ne_of_isWordChar h]

theorem isPlainRun_of_isWordChar (h : ∀ d ∈ cs, isWordChar d = true) : isPlainRun false cs = true := by
  induction cs with
  | nil => rfl
  | cons c cs ih =>
    obtain ⟨hc, hcs⟩ := List.forall_mem_cons.1 h
    simp (disch := decide) [isPlainRun, isBlank_of_isWordChar hc, ne_of_isWordChar hc, ih hcs]

theorem isPlainForm_of_isWordChar (h : ∀ d ∈ c :: cs, isWordChar d = true) :
    isPlainForm (c :: cs) = true := by
  obtain ⟨hc, hcs⟩ := List.forall_mem_cons.1 h
  have hline : (c :: cs).all (fun d => isAdmitted d && !isLineEnd d) = true := by
    rw [List.all_eq_true]
    intro d hd
    rw [isAdmitted_of_isWordChar (h d hd), isLineEnd_of_isWordChar (h d hd)]
    rfl
  have hrun : isPlainRun true (c :: cs) = true := by
    rw [isPlainRun, if_neg (by simp [isBlank_of_isWordChar hc])]
    simp (disch := decide) [ne_of_isWordChar hc, isPlainRun_of_isWordChar hcs]
  show (_ && _ && _) = true
  rw [hline, isPlainFirst_of_isWordChar hc, hrun]
  rfl

/-- **An identifier can be written without quotes** if and only if it is no reserved word. -/
theorem isPlainText_iff_of_isIdentifier {s : String} (h : IsIdentifier s) :
    IsPlainText s ↔ s ∉ Core.reservedWords := by
  obtain ⟨hhead, hword⟩ := h
  obtain ⟨cs, rfl⟩ : ∃ cs, s = String.ofList cs := ⟨s.toList, String.ofList_toList.symm⟩
  rw [String.toList_ofList] at hhead hword
  cases cs with
  | nil => cases hhead
  | cons c cs =>
    have hc := hword c (List.mem_cons_self ..)
    have hdigit : c.isDigit = false := by simpa using hhead
    have hbegins : Core.beginsNoNumber c = true := by
      simp (disch := decide) [Core.beginsNoNumber, hdigit, ne_of_isWordChar hc]
    unfold IsPlainText
    rw [String.toList_ofList, isPlainForm_of_isWordChar hword, Core.isText_of_head hbegins,
      List.contains_eq_mem]
    simp

end Identifier

/-! ## Scalars in a row -/

variable {line column : Nat} {indent : Int} {cs text gap : List Char} {rest tail : List Cell}

theorem isGap_of_onOneLine {c : Char} (hline : isLineEnd c = false) : isGap c = isBlank c := by
  unfold isLineEnd at hline
  simp only [Bool.or_eq_false_iff] at hline
  unfold isGap
  rw [hline.1.1, Bool.or_false]

theorem foldGap_of_onOneLine (h : OnOneLine gap) : foldGap gap = gap := by
  have hnone : gap.filter isBreak = [] := by
    rw [List.filter_eq_nil_iff]
    intro c hc
    have hline := h c hc
    simp only [isLineEnd, Bool.or_eq_false_iff] at hline
    simp [hline.1.1]
  unfold foldGap
  rw [hnone]

/-! ## Words -/

/-- A word goes on to the next blank. -/
theorem plainWord_row (line column : Nat) {afterGap : Bool} (hline : OnOneLine cs)
    (hrun : isPlainRun afterGap cs = true) (htail : beforeGap tail = true) :
    plainWord false (row line column cs ++ tail) =
      some (cs.takeWhile (!isBlank ·), row line (column + (cs.takeWhile (!isBlank ·)).length)
        (cs.dropWhile (!isBlank ·)) ++ tail) := by
  induction cs generalizing column afterGap with
  | nil =>
    cases tail with
    | nil => rfl
    | cons d tail =>
      have hgap : isGap d.char = true := by simpa [beforeGap, next?] using htail
      simp [plainWord, hgap]
  | cons c cs ih =>
    obtain ⟨hc, hcs⟩ := List.forall_mem_cons.1 hline
    have hgap := isGap_of_onOneLine hc
    cases hblank : isBlank c with
    | true => simp [row_cons, plainWord, hgap, hblank]
    | false =>
      rw [isPlainRun, if_neg (by simp [hblank])] at hrun
      simp only [Bool.and_eq_true, Bool.not_eq_true', Bool.and_eq_false_iff] at hrun
      obtain ⟨⟨-, hcolon⟩, hrun⟩ := hrun
      -- a colon in the word is one that no gap follows
      have hmark : (c == ':' && beforeGap (row line (column + 1) cs ++ tail)) = false := by
        rw [Bool.and_eq_false_iff]
        refine hcolon.imp id fun hnext => ?_
        cases cs with
        | nil => simp at hnext
        | cons d cs =>
          have hd := isGap_of_onOneLine (hcs d (List.mem_cons_self ..))
          simp only [List.head?_cons, Option.all_some] at hnext
          simp [beforeGap, next?, row_cons, hd, hnext]
      rw [row_cons, List.cons_append, plainWord, hgap, hblank, hmark, ih _ hcs hrun]
      simp [hblank, Nat.add_assoc, Nat.add_comm 1]

/-! ## Whole scalars -/

/-- Reads on behind a word. -/
def plainBehind (indent : Int) (rounds : Nat) (text : List Char) (rest : List Cell) :
    Option PlainScalar := do
  let gap := rest.takeWhile (isGap ·.char)
  let rest := rest.dropWhile (isGap ·.char)
  if gap.isEmpty then return ⟨text, false, rest⟩
  guard (!hasBadTab indent gap)
  if rest.head?.any (fun c => decide ((c.column : Int) < indent)) then
    return ⟨text, (chars gap).any isBreak, rest⟩
  plainFrom false indent rounds text (chars gap) rest

theorem plainFrom_succ {rounds : Nat} {cells : List Cell} {word : List Char}
    (hmarker : isDocumentMarker cells = false) (hcomment : next? cells ≠ some '#')
    (hword : plainWord false cells = some (word, rest)) (hne : word ≠ []) :
    plainFrom false indent (rounds + 1) text gap cells =
      plainBehind indent rounds (text ++ foldGap gap ++ word) rest := by
  rw [plainFrom, if_neg (by simp [hmarker, hcomment]), hword]
  have hempty : word.isEmpty = false := by simpa using hne
  simp only [Option.bind_eq_bind, Option.bind_some, hempty]
  rfl

theorem isDocumentMarker_of_column {c : Cell} (h : c.column ≠ 0) (cells : List Cell) :
    isDocumentMarker (c :: cells) = false := by
  have hmarker : ∀ m, isMarker m (c :: cells) = false := by
    intro m
    unfold isMarker
    split
    · rename_i heq
      obtain ⟨rfl, -⟩ := List.cons.inj heq
      simp [h]
    · rfl
  unfold isDocumentMarker
  rw [hmarker, hmarker]
  rfl

/-- Behind a gap a plain scalar ends or goes on, as the indentation has it. -/
theorem plainBehind_gap {rounds : Nat} {cells : List Cell} (hgap : ∀ x ∈ cells, isGap x.char = true)
    (hne : cells ≠ []) (htab : hasBadTab indent cells = false)
    (hrest : ∀ x ∈ rest.head?, isGap x.char = false) :
    plainBehind indent rounds text (cells ++ rest) =
      if rest.head?.any (fun c => decide ((c.column : Int) < indent)) then
        some ⟨text, (chars cells).any isBreak, rest⟩
      else plainFrom false indent rounds text (chars cells) rest := by
  have hnonempty : cells.isEmpty = false := by simpa using hne
  unfold plainBehind
  simp only [takeWhile_gap hgap hrest, dropWhile_gap hgap hrest, hnonempty, htab]
  rfl

/-- Blanks between two words stay as they are. -/
theorem plainBehind_blanks {rounds : Nat} {blanks : List Char} {c : Char}
    (hblanks : ∀ b ∈ blanks, isBlank b = true) (hne : blanks ≠ []) (hc : isGap c = false)
    (hcolumn : indent ≤ column) :
    plainBehind indent rounds text (row line column (blanks ++ c :: cs) ++ tail) =
      plainFrom false indent rounds text blanks
        (row line (column + blanks.length) (c :: cs) ++ tail) := by
  have hgaps : ∀ x ∈ row line column blanks, isGap x.char = true := by
    intro x hx
    have hblank := hblanks x.char (mem_row hx)
    simp [isGap, hblank]
  have hnonempty : row line column blanks ≠ [] := by
    rw [← List.length_pos_iff, length_row]
    exact List.length_pos_iff.2 hne
  have htab : hasBadTab indent (row line column blanks) = false := by
    unfold hasBadTab
    rw [List.any_eq_false]
    intro x hx
    have hle := column_le_of_mem_row hx
    have hcolumn : ¬ (x.column : Int) < indent := by omega
    simp [hcolumn]
  have hindent : ¬ (((column + blanks.length : Nat) : Int) < indent) := by omega
  rw [row_append, List.append_assoc, plainBehind_gap hgaps hnonempty htab, chars_row, if_neg]
  · simp only [row_cons, List.cons_append, List.head?_cons, Option.any_some, decide_eq_true_eq]
    exact hindent
  · intro x hx
    obtain rfl := Option.some.inj hx
    exact hc

/-- At the end of a text a plain scalar ends. -/
theorem plainBehind_nil (rounds : Nat) :
    plainBehind indent rounds text [] = some ⟨text, false, []⟩ := rfl

/-- A plain scalar ends where the next line is not indented. -/
theorem plainBehind_newline {rounds n : Nat} (hbegins : Begins rest)
    (hindent : ∀ c ∈ rest.head?, (c.column : Int) < indent) :
    plainBehind indent (rounds + 1) text (newline line column n ++ rest) =
      some ⟨text, true, rest⟩ := by
  have hspaces : ∀ x ∈ newline line column n, x.char = '\n' ∨ x.char = ' ' := by
    intro x hx
    rcases List.mem_cons.1 hx with rfl | hx
    · exact .inl rfl
    · exact .inr (List.eq_of_mem_replicate (mem_row hx))
  have hgaps : ∀ x ∈ newline line column n, isGap x.char = true := by
    intro x hx
    rcases hspaces x hx with h | h <;> rw [h] <;> rfl
  have htab : hasBadTab indent (newline line column n) = false := by
    unfold hasBadTab
    rw [List.any_eq_false]
    intro x hx
    rcases hspaces x hx with h | h <;> simp [h]
  have hbreak : (chars (newline line column n)).any isBreak = true := by
    simp [newline, chars, isBreak]
  rw [plainBehind_gap hgaps (List.cons_ne_nil _ _) htab fun x hx => (hbegins x hx).1, hbreak]
  cases rest with
  | nil =>
    show plainFrom false indent (rounds + 1) text (chars (newline line column n)) [] = _
    unfold plainFrom
    simp [isDocumentMarker, isMarker, next?, plainWord, hbreak]
  | cons c rest =>
    have hc := hindent c rfl
    simp [hc]

/-- Behind a word the text ends or goes on with a blank. -/
theorem isPlainRun_dropWord {afterGap : Bool} (h : isPlainRun afterGap cs = true) :
    cs.dropWhile (!isBlank ·) = [] ∨ ∃ b more, cs.dropWhile (!isBlank ·) = b :: more ∧
      isBlank b = true ∧ isPlainRun true more = true := by
  induction cs generalizing afterGap with
  | nil => exact .inl rfl
  | cons c cs ih =>
    cases hblank : isBlank c with
    | true =>
      rw [List.dropWhile_cons_of_neg (by simp [hblank])]
      rw [isPlainRun, if_pos hblank] at h
      exact .inr ⟨c, cs, rfl, hblank, h⟩
    | false =>
      rw [List.dropWhile_cons_of_pos (by simp [hblank])]
      rw [isPlainRun, if_neg (by simp [hblank])] at h
      exact ih (Bool.and_eq_true_iff.1 h).2

/-- Behind blanks the text goes on with a word. -/
theorem isPlainRun_dropBlanks (h : isPlainRun true cs = true) :
    ∃ c more, cs.dropWhile isBlank = c :: more ∧ isBlank c = false ∧
      isPlainRun true (c :: more) = true := by
  induction cs with
  | nil => cases h
  | cons c cs ih =>
    cases hblank : isBlank c with
    | true =>
      rw [List.dropWhile_cons_of_pos hblank]
      rw [isPlainRun, if_pos hblank] at h
      exact ih h
    | false =>
      rw [List.dropWhile_cons_of_neg (by simp [hblank])]
      exact ⟨c, cs, rfl, hblank, h⟩

theorem ne_comment_of_isPlainRun {c : Char} (h : isPlainRun true (c :: cs) = true)
    (hc : isBlank c = false) : c ≠ '#' := by
  rintro rfl
  rw [isPlainRun, if_neg (by simp [hc])] at h
  simp at h

/-- Behind a word the text ends, or blanks and another word follow. -/
theorem isPlainRun_behindWord {afterGap : Bool} (h : isPlainRun afterGap cs = true) :
    cs.dropWhile (!isBlank ·) = [] ∨ ∃ blanks d more,
      cs.dropWhile (!isBlank ·) = blanks ++ d :: more ∧ blanks ≠ [] ∧
        (∀ b ∈ blanks, isBlank b = true) ∧ isBlank d = false ∧
          isPlainRun true (d :: more) = true := by
  rcases isPlainRun_dropWord h with hend | ⟨b, spaced, hblank, hb, hspaced⟩
  · exact .inl hend
  · obtain ⟨d, more, hdrop, hd, hmore⟩ := isPlainRun_dropBlanks hspaced
    refine .inr ⟨b :: spaced.takeWhile isBlank, d, more, ?_, by simp, ?_, hd, hmore⟩
    · rw [hblank, List.cons_append, ← hdrop, List.takeWhile_append_dropWhile]
    · exact List.forall_mem_cons.2 ⟨hb, List.all_eq_true.1 List.all_takeWhile⟩

/-- **A text that goes on to its end is read to its end.** -/
theorem plainFrom_row (line column rounds : Nat) (text gap : List Char) (tail : List Cell) {c : Char}
    (hcolumn : 0 < column) (hindent : indent ≤ column)
    (hline : OnOneLine (c :: cs)) (hc : isBlank c = false) (hrun : isPlainRun true (c :: cs) = true)
    (htail : beforeGap tail = true) (hrounds : cs.length < rounds) :
    ∃ left, plainFrom false indent (rounds + 1) text gap (row line column (c :: cs) ++ tail) =
      plainBehind indent (left + 1) (text ++ foldGap gap ++ c :: cs) tail := by
  -- a round reads one word and the blanks behind it, so the induction is on the rounds
  induction rounds generalizing c cs column text gap with
  | zero => omega
  | succ rounds ih =>
    have hword := plainWord_row line column hline hrun htail
    have hsplit := List.takeWhile_append_dropWhile (p := (!isBlank ·)) (l := c :: cs)
    have hne : (c :: cs).takeWhile (!isBlank ·) ≠ [] := by
      rw [List.takeWhile_cons_of_pos (by simp [hc])]
      simp
    have hmarker : isDocumentMarker (row line column (c :: cs) ++ tail) = false :=
      isDocumentMarker_of_column (c := ⟨c, line, column⟩) (Nat.ne_of_gt hcolumn) _
    have hcomment : next? (row line column (c :: cs) ++ tail) ≠ some '#' := by
      intro h
      exact ne_comment_of_isPlainRun hrun hc (Option.some.inj h)
    rw [plainFrom_succ hmarker hcomment hword hne]
    generalize (c :: cs).takeWhile (!isBlank ·) = word at *
    rcases isPlainRun_behindWord hrun with
      hend | ⟨blanks, d, more, hbehind, hblanksNe, hblanks, hd, hmore⟩
    · rw [hend, List.append_nil] at hsplit
      rw [hend, row_nil, List.nil_append, hsplit]
      exact ⟨rounds, rfl⟩
    · rw [hbehind] at hsplit ⊢
      rw [← hsplit] at hline
      have hlength : more.length < cs.length := by
        have hlengths := congrArg List.length hsplit
        have hpos := List.length_pos_iff.2 hblanksNe
        have hword := List.length_pos_iff.2 hne
        simp only [List.length_append, List.length_cons] at hlengths
        omega
      have hlineBehind : OnOneLine (blanks ++ d :: more) :=
        fun x hx => hline x (List.mem_append_right _ hx)
      have hlineMore : OnOneLine (d :: more) :=
        fun x hx => hlineBehind x (List.mem_append_right _ hx)
      have hdGap : isGap d = false := by
        rw [isGap_of_onOneLine (hlineMore d (List.mem_cons_self ..)), hd]
      rw [plainBehind_blanks hblanks hblanksNe hdGap (by omega)]
      obtain ⟨left, hleft⟩ := ih (column + word.length + blanks.length)
        (text ++ foldGap gap ++ word) blanks (by omega) (by omega) hlineMore hd hmore (by omega)
      refine ⟨left, hleft.trans ?_⟩
      -- on one line a gap is kept as it is, so what was read is the text itself
      rw [foldGap_of_onOneLine fun x hx => hlineBehind x (List.mem_append_left _ hx), ← hsplit]
      simp only [List.append_assoc]

/-- A text of the form of a plain scalar, in its parts. -/
theorem parts_of_isPlainForm (h : isPlainForm cs = true) :
    ∃ c more, cs = c :: more ∧ (∀ d ∈ cs, isAdmitted d = true) ∧ OnOneLine cs ∧
      isPlainFirst c more = true ∧ isBlank c = false ∧ isPlainRun true cs = true := by
  unfold isPlainForm at h
  split at h
  · cases h
  · rename_i c more
    simp only [Bool.and_eq_true] at h
    obtain ⟨⟨hall, hfirst⟩, hrun⟩ := h
    rw [List.all_eq_true] at hall
    simp only [Bool.and_eq_true, Bool.not_eq_true'] at hall
    have hblank : isBlank c = false := by
      unfold isPlainFirst at hfirst
      split at hfirst
      · rename_i hmark
        simp only [Bool.or_eq_true, beq_iff_eq] at hmark
        rcases hmark with (rfl | rfl) | rfl <;> rfl
      · simp only [Bool.not_eq_true', Bool.or_eq_false_iff, isGap] at hfirst
        exact hfirst.1.1.1
    exact ⟨c, more, rfl, fun d hd => (hall d hd).1, fun d hd => (hall d hd).2, hfirst, hblank, hrun⟩

/-- **A text of the form of a plain scalar is read to its end**, and the next line is left. -/
theorem plain?_row (line : Nat) {n : Nat} (h : isPlainForm cs = true) (hcolumn : 0 < column)
    (hindent : indent ≤ column) (hbegins : Begins rest)
    (hnext : ∀ c ∈ rest.head?, (c.column : Int) < indent) :
    plain? false indent (row line column cs ++
      (newline line (column + cs.length) n ++ rest)) = some ⟨cs, true, rest⟩ := by
  obtain ⟨c, more, rfl, -, hline, -, hblank, hrun⟩ := parts_of_isPlainForm h
  obtain ⟨left, hleft⟩ := plainFrom_row line column
    (row line column (c :: more) ++ (newline line (column + (c :: more).length) n ++ rest)).length [] []
    (newline line (column + (c :: more).length) n ++ rest) hcolumn hindent hline hblank hrun rfl (by simp; omega)
  unfold plain?
  rw [hleft]
  exact plainBehind_newline hbegins hnext

end ApiModel.Yaml
