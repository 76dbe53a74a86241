import ApiModel.Proofs.Yaml.Lexer

/-!
# Lexing an entry

What the lexer does with the parts of a line: a dash, a key with its colon, and a plain or a quoted value.

Principal results:

* `reads_dash` — a dash begins an item, of a sequence that it may open;
* `reads_key` — a key and a colon begin an entry, of a mapping that they may open;
* `reads_plain`, `reads_quoted` — a value is read to its end.
-/

namespace ApiModel.Yaml

namespace Lexer

variable {l : Lexer} {ts us : List Token} {open_ : List Nat} {line column : Nat} {c : Cell}
  {rest tail : List Cell}

/-! ## Single tokens -/

theorem isMarker_of_ne {m : Char} {d : Cell} (h : d.char ≠ m) (cells : List Cell) :
    isMarker m (d :: cells) = false := by
  unfold isMarker
  split
  · rename_i heq
    obtain ⟨rfl, -⟩ := List.cons.inj heq
    simp [h]
  · rfl

theorem isMarker_of_next {m : Char} {d e : Cell} (h : e.char ≠ m) (cells : List Cell) :
    isMarker m (d :: e :: cells) = false := by
  cases cells with
  | nil => rfl
  | cons f cells => simp [isMarker, h]

theorem token_dash {l' : Lexer} {d : Cell} (hc : c.char = '-') (hd : d.char = ' ')
    (h : l.item c .blockSequenceStart .blockEntry true = some l') :
    l.token c (d :: rest) = some (l', d :: rest) := by
  have hmarker := isMarker_of_next (m := '-') (d := c) (e := d) (by simp [hd]) rest
  have hmarker' := isMarker_of_next (m := '.') (d := c) (e := d) (by simp [hd]) rest
  have hgap : beforeGap (d :: rest) = true := by simp [beforeGap, next?, hd, isGap, isBlank]
  unfold token
  simp only [hc, hmarker, hmarker', hgap]
  simp [h]

theorem token_colon {l' : Lexer} (hc : c.char = ':') (hgap : beforeGap rest = true)
    (h : l.value c = some l') : l.token c rest = some (l', rest) := by
  have hmarker := isMarker_of_ne (m := '-') (d := c) (by simp [hc]) rest
  have hmarker' := isMarker_of_ne (m := '.') (d := c) (by simp [hc]) rest
  unfold token
  simp only [hc, hmarker, hmarker', hgap]
  simp [h]

theorem token_quote {l' : Lexer} {text : List Char} (hc : c.char = '"')
    (hquoted : quoted? '"' rest = some (text, tail))
    (h : l.node c (.scalar false (String.ofList text)) = some l') :
    l.token c rest = some (l', tail) := by
  have hmarker := isMarker_of_ne (m := '-') (d := c) (by simp [hc]) rest
  have hmarker' := isMarker_of_ne (m := '.') (d := c) (by simp [hc]) rest
  unfold token
  simp only [hc, hmarker, hmarker']
  simp [h, hquoted]

theorem token_openList {l' : Lexer} (hc : c.char = '[') (h : l.openFlow c .flowSequenceStart = some l') :
    l.token c rest = some (l', rest) := by
  have hmarker := isMarker_of_ne (m := '-') (d := c) (by simp [hc]) rest
  have hmarker' := isMarker_of_ne (m := '.') (d := c) (by simp [hc]) rest
  unfold token
  simp only [hc, hmarker, hmarker']
  simp [h]

theorem token_closeList {l' : Lexer} (hc : c.char = ']') (h : l.closeFlow .flowSequenceEnd = some l') :
    l.token c rest = some (l', rest) := by
  have hmarker := isMarker_of_ne (m := '-') (d := c) (by simp [hc]) rest
  have hmarker' := isMarker_of_ne (m := '.') (d := c) (by simp [hc]) rest
  unfold token
  simp only [hc, hmarker, hmarker']
  simp [h]

theorem token_comma {l' : Lexer} (hc : c.char = ',') (h : l.dropCandidate = some l') :
    l.token c rest = some ({ l' with keyAllowed := true }.emit .flowEntry, rest) := by
  have hmarker := isMarker_of_ne (m := '-') (d := c) (by simp [hc]) rest
  have hmarker' := isMarker_of_ne (m := '.') (d := c) (by simp [hc]) rest
  unfold token
  simp only [hc, hmarker, hmarker']
  simp [h]

/-- The character announces no other token than a plain scalar, if a text follows it. -/
theorem beginsPlain_of_isPlainFirst (line column : Nat) (tail : List Cell) {ch : Char} {cs : List Char}
    (hline : OnOneLine cs) (h : isPlainFirst ch cs = true) :
    beginsPlain false ch (row line column cs ++ tail) = true ∧
      (ch = '-' ∨ ch = '?' ∨ ch = ':' → beforeGap (row line column cs ++ tail) = false) ∧
      isFlowMark ch = false ∧ ['#', '&', '*', '!', '|', '>', '\'', '"', '%', '@', '`'].contains ch = false := by
  unfold isPlainFirst at h
  split at h
  · rename_i hmark
    simp only [Bool.or_eq_true, beq_iff_eq, or_assoc] at hmark
    cases cs with
    | nil => cases h
    | cons d cs =>
      have hblank : isBlank d = false := by simpa using h
      have hgap : isGap d = false := by
        rw [isGap_of_onOneLine (hline d (List.mem_cons_self ..)), hblank]
      have hnext : beforeGap (row line column (d :: cs) ++ tail) = false := by
        simp [beforeGap, next?, row_cons, hgap]
      refine ⟨?_, fun _ => hnext, ?_, ?_⟩
      · unfold beginsPlain
        rw [hnext]
        rcases hmark with rfl | rfl | rfl <;> simp [next?, row_cons, hblank]
      · rcases hmark with rfl | rfl | rfl <;> rfl
      · rcases hmark with rfl | rfl | rfl <;> decide
  · rename_i hmark
    simp only [Bool.or_eq_true, beq_iff_eq, or_assoc] at hmark
    simp only [Bool.not_eq_true', Bool.or_eq_false_iff] at h
    refine ⟨?_, fun hor => absurd hor hmark, h.1.2, h.2⟩
    unfold beginsPlain
    rw [not_or, not_or] at hmark
    simp only [hmark.1, hmark.2.1, hmark.2.2, beq_iff_eq, if_false, Bool.or_eq_true, or_self, h.1.1,
      h.1.2, h.2, Bool.or_self, Bool.not_false]

/-- A plain scalar begins with a character and a text behind it. -/
theorem token_plain (line column : Nat) (tail : List Cell) {l' : Lexer} {cs : List Char} {s : PlainScalar}
    (hflow : l.inFlow = false)
    (hmarker : isDocumentMarker (c :: (row line column cs ++ tail)) = false)
    (hline : OnOneLine cs) (hfirst : isPlainFirst c.char cs = true)
    (hplain : plain? false (l.indent + 1) (c :: (row line column cs ++ tail)) = some s)
    (h : l.node c (.scalar true (String.ofList s.text)) = some l') :
    l.token c (row line column cs ++ tail) =
      some ({ l' with keyAllowed := s.endsLine }, s.rest) := by
  obtain ⟨hbegins, hnext, hflowMark, hother⟩ :=
    beginsPlain_of_isPlainFirst line column tail hline hfirst
  generalize row line column cs ++ tail = rest at *
  simp only [isDocumentMarker, Bool.or_eq_false_iff] at hmarker
  simp only [isFlowMark, Bool.or_eq_false_iff, beq_eq_false_iff_ne] at hflowMark
  simp only [List.contains_eq_mem, List.mem_cons, List.not_mem_nil, or_false, decide_eq_false_iff_not,
    not_or] at hother
  have hdash : (c.char == '-' && beforeGap rest) = false := by
    rw [Bool.and_eq_false_imp, beq_iff_eq]
    exact fun hc => hnext (.inl hc)
  have hquestion : (c.char == '?' && beforeGap rest) = false := by
    rw [Bool.and_eq_false_imp, beq_iff_eq]
    exact fun hc => hnext (.inr (.inl hc))
  have hcolon : (c.char == ':' && beforeGap rest) = false := by
    rw [Bool.and_eq_false_imp, beq_iff_eq]
    exact fun hc => hnext (.inr (.inr hc))
  unfold token
  simp only [hmarker, hflow, hflowMark, hother, hdash, hquestion, hcolon, hbegins, beq_iff_eq,
    Bool.false_or, Bool.and_eq_true, and_false, false_and, Bool.or_eq_true, or_self, if_false, if_true,
    Bool.false_eq_true, hplain, h, Option.bind_eq_bind, Option.bind_some]
  rfl

/-! ## Dashes -/

/-- **A dash begins an item**, of a sequence that it may open. -/
theorem reads_dash (h : At l ts open_ line) (hallowed : l.keyAllowed = true) (hbegins : Begins rest)
    (hread : ∀ l', At l' (ts ++ (closing open_ column ++
        (opening (closed open_ column) column .blockSequenceStart ++ [.blockEntry])))
      (opened (closed open_ column) column) line → l'.keyAllowed = true → Reads l' rest us) :
    Reads l (row line column ['-', ' '] ++ rest) us := by
  have hopen := (h.close column).openBlock column .blockSequenceStart
  have hallowed' : (l.close column).keyAllowed = true := by
    rw [keyAllowed_close, hallowed]
  have hitem : (l.close column).item ⟨'-', line, column⟩ .blockSequenceStart .blockEntry true =
      some ({ (l.close column).openBlock column .blockSequenceStart with keyAllowed := true }.emit
        .blockEntry) := by
    unfold item
    simp [guard, hallowed', hopen.dropCandidate]
  refine Reads.token (c := ⟨'-', line, column⟩) (begins_cons rfl (by simp)) (h.expire _)
    (token_dash rfl rfl hitem) (Nat.le_refl _) ?_
  have hat := (hopen.allow true).emit .blockEntry
  refine Reads.skip ?_ hbegins (by simp) (hread _ ?_ rfl)
  · rw [hat.inFlow]
    exact skip_spaces hbegins false true 1
  · simpa only [List.append_assoc] using hat.allow true

/-! ## Keys -/

theorem plainWord_key {cs : List Char} (hcs : ∀ c ∈ cs, isWordChar c = true) {d : Cell}
    (hd : d.char = ':') (hgap : beforeGap rest = true) :
    plainWord false (row line column cs ++ d :: rest) = some (cs, d :: rest) := by
  induction cs generalizing column with
  | nil => simp [plainWord, hd, hgap, isGap, isBlank, isBreak, isSeparator]
  | cons c cs ih =>
    obtain ⟨hc, hcs⟩ := List.forall_mem_cons.1 hcs
    rw [row_cons, List.cons_append, plainWord]
    simp (disch := decide) [isGap_of_isWordChar hc, ne_of_isWordChar hc, ih hcs]

/-- The text in front of a colon is read. -/
theorem plain?_key {indent : Int} {a : Char} {cs : List Char}
    (hkey : ∀ c ∈ a :: cs, isWordChar c = true) {d : Cell} (hd : d.char = ':')
    (hgap : beforeGap rest = true) :
    plain? false indent (row line column (a :: cs) ++ d :: rest) =
      some ⟨a :: cs, false, d :: rest⟩ := by
  have ha := hkey a (List.mem_cons_self ..)
  have hmarker : isDocumentMarker (row line column (a :: cs) ++ d :: rest) = false := by
    rw [row_cons, List.cons_append, isDocumentMarker, isMarker_of_ne (ne_of_isWordChar ha rfl),
      isMarker_of_ne (ne_of_isWordChar ha rfl)]
    rfl
  have hcomment : next? (row line column (a :: cs) ++ d :: rest) ≠ some '#' := fun h =>
    ne_of_isWordChar ha rfl (Option.some.inj h)
  have hend : isGap d.char = false := by
    rw [hd]
    rfl
  unfold plain?
  rw [plainFrom_succ hmarker hcomment (plainWord_key hkey hd hgap) (by simp)]
  unfold plainBehind
  rw [List.takeWhile_cons_of_neg (by simp [hend]), List.dropWhile_cons_of_neg (by simp [hend])]
  rfl

/-- Where a key may begin, the lexer reads a word up to the colon. -/
theorem reads_word {a : Char} {cs : List Char} {d : Cell} (h : At l ts open_ line)
    (hallowed : l.keyAllowed = true) (hkey : ∀ c ∈ a :: cs, isWordChar c = true) (hd : d.char = ':')
    (hgap : beforeGap rest = true)
    (hread : Reads ((l.close column).behindKey ⟨a, line, column⟩ (String.ofList (a :: cs)))
      (d :: rest) us) :
    Reads l (row line column (a :: cs) ++ d :: rest) us := by
  have ha := hkey a (List.mem_cons_self ..)
  have hclose := h.close column
  have hallowed' : (l.close column).keyAllowed = true := by
    rw [keyAllowed_close, hallowed]
  have hline : OnOneLine cs := fun b hb => isLineEnd_of_isWordChar (hkey b (List.mem_cons_of_mem a hb))
  have hmarker : ∀ cells, isDocumentMarker (⟨a, line, column⟩ :: cells) = false := by
    intro cells
    rw [isDocumentMarker, isMarker_of_ne (ne_of_isWordChar ha rfl),
      isMarker_of_ne (ne_of_isWordChar ha rfl)]
    rfl
  have htoken := token_plain (c := ⟨a, line, column⟩) line (column + 1) _ hclose.inFlow (hmarker _) hline
    (isPlainFirst_of_isWordChar ha cs)
    (plain?_key hkey hd hgap)
    (hclose.node hallowed' ⟨a, line, column⟩ (String.ofList (a :: cs)))
  exact Reads.token (begins_cons (isGap_of_isWordChar ha) (ne_of_isWordChar ha rfl)) (h.expire _) htoken
    (by simp) hread

/-- **A key and a colon begin an entry**, of a mapping that they may open. -/
theorem reads_key {key : String} (h : At l ts open_ line) (hallowed : l.keyAllowed = true)
    (hkey : IsKey key) (hgap : beforeGap rest = true)
    (hread : ∀ l', At l' (ts ++ (closing open_ column ++
        (opening (closed open_ column) column .blockMappingStart ++ [.key, .scalar true key, .value])))
      (opened (closed open_ column) column) line → l'.keyAllowed = false → Reads l' rest us) :
    Reads l (row line column (key.toList ++ [':']) ++ rest) us := by
  obtain ⟨a, cs, hcs, hchars⟩ := hkey.exists_cons
  have hlength : key.toList.length ≤ 1024 := hkey.2.2.1
  have hkey : String.ofList (a :: cs) = key := by rw [← hcs, String.ofList_toList]
  rw [hcs] at hlength ⊢
  have hclose := h.close column
  -- the key begins near enough for the colon
  have hexpire := (l.close column).expire_behindKey hclose.flow ⟨a, line, column⟩
    (String.ofList (a :: cs)) (d := ⟨':', line, column + (a :: cs).length⟩) (by simpa [Candidate.isStale] using hlength)
  have hindent : ((l.close column).behindKey ⟨a, line, column⟩ (String.ofList (a :: cs))).indent ≤
      ((column + (a :: cs).length : Nat) : Int) :=
    Int.le_trans (hclose.indent_le head_closed) (by omega)
  obtain ⟨l', hvalue, hnone, hat⟩ := hclose.value (c := ⟨a, line, column⟩) (Nat.le_refl line)
    (String.ofList (a :: cs)) ⟨':', line, column + (a :: cs).length⟩
  rw [hkey, List.append_assoc] at hat
  rw [row_append, List.append_assoc]
  refine reads_word (d := ⟨':', line, column + (a :: cs).length⟩) h hallowed hchars rfl hgap ?_
  refine Reads.token (begins_cons rfl (by simp)) hexpire (token_colon rfl hgap ?_) (Nat.le_refl _)
    (hread l' hat hnone)
  exact (congrArg (Lexer.value · _) (close_of_le hindent)).trans hvalue

/-! ## Values -/

/-- Behind a colon no key begins. -/
theorem node_of_not_allowed (h : l.keyAllowed = false) (c : Cell) (t : Token) :
    l.node c t = some (l.emit t) := by
  unfold Lexer.node noteCandidate
  rw [if_neg (by simp [h])]
  obtain ⟨entries, indent, outerIndents, candidate, outerCandidates, keyAllowed⟩ := l
  obtain rfl : keyAllowed = false := h
  rfl

/-- A value stands behind the column of its block. -/
theorem At.close_value {n : Nat} (h : At l ts (n :: open_) line) (hcolumn : n < column) :
    l.close column = l :=
  close_of_le (h.indent_le fun _ hm => Nat.le_of_lt (Option.some.inj hm ▸ hcolumn))

theorem reads_plain {n indent : Nat} {s : String} (h : At l ts (n :: open_) line)
    (hallowed : l.keyAllowed = false) (hcolumn : n < column) (hs : isPlainForm s.toList = true)
    (hbegins : Begins rest) (hnext : ∀ c ∈ rest.head?, c.column ≤ n)
    (hread : ∀ l', At l' (ts ++ [.scalar true s]) (n :: open_) line → l'.keyAllowed = true →
      Reads l' rest us) :
    Reads l (row line column s.toList ++
      (newline line (column + s.toList.length) indent ++ rest)) us := by
  obtain ⟨a, cs, hcs, -, hline, hfirst, hblank, hrun⟩ := parts_of_isPlainForm hs
  have hindent : l.indent = n := (List.cons.inj h.indents).1
  have hcolumn' : 0 < column := by omega
  have hindent' : l.indent + 1 ≤ column := by omega
  have hplain := plain?_row line (n := indent) hs hcolumn' hindent' hbegins (fun c hc => by
      have := hnext c hc
      omega)
  rw [hcs] at hplain hline hrun ⊢
  have hlineMore : OnOneLine cs := fun b hb => hline b (List.mem_cons_of_mem a hb)
  have hgap : isGap a = false := by
    rw [isGap_of_onOneLine (hline a (List.mem_cons_self ..)), hblank]
  have htoken := token_plain (c := ⟨a, line, column⟩) line (column + 1) _ h.inFlow
    (isDocumentMarker_of_column (c := ⟨a, line, column⟩) (by simp; omega) _) hlineMore hfirst hplain
    (node_of_not_allowed hallowed _ (.scalar true (String.ofList (a :: cs))))
  rw [show String.ofList (a :: cs) = s by rw [← hcs, String.ofList_toList]] at htoken
  have hat := (h.emit (.scalar true s)).allow true
  refine Reads.token (begins_cons hgap (ne_comment_of_isPlainRun hrun hblank)) (h.expire _) ?_
    (by simp [newline]; omega) (hread _ hat rfl)
  rw [h.close_value hcolumn]
  exact htoken

theorem reads_quoted {n : Nat} {s : String} (h : At l ts (n :: open_) line)
    (hallowed : l.keyAllowed = false) (hcolumn : n < column) (hs : Quotable s.toList)
    (hread : ∀ l', At l' (ts ++ [.scalar false s]) (n :: open_) line → l'.keyAllowed = false →
      Reads l' rest us) :
    Reads l (row line column (Json.quote s).toList ++ rest) us := by
  rw [toList_quote, row_cons, List.cons_append]
  have htoken := token_quote (l := l) (c := ⟨'"', line, column⟩) rfl
    (quoted?_row line (column + 1) rest (Nat.succ_pos column) hs)
    (node_of_not_allowed hallowed ..)
  rw [String.ofList_toList] at htoken
  refine Reads.token (begins_cons rfl (by simp)) (h.expire _) ?_ (by simp) (hread _ (h.emit _) hallowed)
  rw [h.close_value hcolumn]
  exact htoken

end Lexer

end ApiModel.Yaml
