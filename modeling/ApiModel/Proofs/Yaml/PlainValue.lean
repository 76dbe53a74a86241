import ApiModel.Proofs.Yaml.Entry
import Mathlib.Data.List.Chain

/-!
# Values without quotes

A text written without quotes behind a key, and what a reader makes of it.

Principal result: `plainValue?_eq_some_iff` — **a text stands for itself without quotes if and only if it
has the form of a plain scalar and the schema takes it for a text**.
-/

namespace ApiModel.Yaml

/-- What a text at a column stands for inside a mapping, if it is one plain scalar and a text. -/
def plainValue? (indent column : Nat) (s : String) : Option String :=
  if s.toList.all isAdmitted then
    match cellsFrom 0 column s.toList with
    | [] => none
    | c :: rest =>
      match Lexer.token { indent, outerIndents := [-1], keyAllowed := false } c rest with
      | some ({ entries := [.token (.scalar true text)], .. }, []) =>
        if Core.isText text then some text else none
      | _ => none
  else none

variable {line column : Nat} {indent : Int} {text gap : List Char} {cells rest : List Cell}

/-! ## Gaps -/

/-- Behind the end of a line a new line begins. -/
def Laid (cells : List Cell) : Prop := cells.IsChain fun a b => isBreak a.char = true → b.column = 0

theorem Laid.of_append (h : Laid (cells ++ rest)) : Laid rest := (List.isChain_append.1 h).2.1

theorem length_foldGap_le (gap : List Char) : (foldGap gap).length ≤ gap.length := by
  have hfilter := List.length_filter_le isBreak gap
  unfold foldGap
  generalize gap.filter isBreak = breaks at *
  split
  case h_1 => exact Nat.le_refl _
  case h_3 => exact Nat.le_trans (Nat.le_succ _) hfilter
  all_goals exact hfilter

theorem length_foldGap_of_break (h : gap.any isBreak = true) :
    (foldGap gap).length ≤ (gap.filter isBreak).length := by
  obtain ⟨c, hc, hbreak⟩ := List.any_eq_true.1 h
  have hmem : c ∈ gap.filter isBreak := List.mem_filter.2 ⟨hc, hbreak⟩
  unfold foldGap
  generalize gap.filter isBreak = breaks at *
  split
  case h_1 => cases hmem
  case h_3 => exact Nat.le_succ _
  all_goals exact Nat.le_refl _

/-- A gap with a line end is folded if the next line is indented. -/
theorem length_foldGap_lt {c : Cell} {gap : List Cell} (hlaid : Laid (gap ++ c :: rest))
    (hcolumn : c.column ≠ 0) (h : (chars gap).any isBreak = true) :
    (foldGap (chars gap)).length < (chars gap).length := by
  have hfold := length_foldGap_of_break h
  have hne : gap ≠ [] := by
    rintro rfl
    cases h
  have hlast : isBreak (gap.getLast hne).char = false := by
    have hnext := (List.isChain_append.1 hlaid).2.2 _ (List.getLast_mem_getLast? hne) c rfl
    rw [Bool.eq_false_iff]
    exact fun hbreak => hcolumn (hnext hbreak)
  have hfilter : ((chars gap).filter isBreak).length < (chars gap).length := by
    rw [List.length_filter_lt_length_iff_exists]
    exact ⟨_, List.mem_map_of_mem (List.getLast_mem hne), by simp [hlast]⟩
  omega

/-! ## Words -/

/-- What a word is, and how a text goes on behind it. -/
theorem plainWord_eq_some {word : List Char} (h : plainWord false cells = some (word, rest)) :
    ∃ read, cells = read ++ rest ∧ chars read = word ∧ (∀ c ∈ word, isGap c = false) ∧
      isPlainRun false (chars cells) = isPlainRun false (chars rest) := by
  induction cells generalizing word with
  | nil =>
    obtain ⟨rfl, rfl⟩ := Prod.mk.inj (Option.some.inj h)
    exact ⟨[], rfl, rfl, by simp, rfl⟩
  | cons c cells ih =>
    rw [plainWord] at h
    split at h
    · obtain ⟨rfl, rfl⟩ := Prod.mk.inj (Option.some.inj h)
      exact ⟨[], rfl, rfl, by simp, rfl⟩
    · rename_i hgap
      simp only [Bool.false_and, Bool.false_eq_true, if_false, Bool.or_false, Bool.and_eq_true,
        beq_iff_eq] at h
      split at h
      · obtain ⟨rfl, rfl⟩ := Prod.mk.inj (Option.some.inj h)
        exact ⟨[], rfl, rfl, by simp, rfl⟩
      · rename_i hcolon
        obtain ⟨⟨more, rest'⟩, hmore, heq⟩ := Option.map_eq_some_iff.1 h
        obtain ⟨rfl, rfl⟩ := Prod.mk.inj heq
        obtain ⟨read, rfl, rfl, hword, hrun⟩ := ih hmore
        refine ⟨c :: read, rfl, rfl, List.forall_mem_cons.2 ⟨by simpa using hgap, hword⟩, ?_⟩
        have hblank : isBlank c.char = false := by simp_all [isGap]
        have hnext : (c.char == ':' && (chars (read ++ rest')).head?.all isBlank) = false := by
          rw [Bool.and_eq_false_imp, beq_iff_eq]
          intro hc
          have hnext : beforeGap (read ++ rest') = false := by simpa [hc] using hcolon
          cases hcells : read ++ rest' with
          | nil =>
            rw [hcells] at hnext
            cases hnext
          | cons d cells =>
            rw [hcells] at hnext
            simp_all [beforeGap, next?, isGap, chars]
        show isPlainRun false (c.char :: chars (read ++ rest')) = _
        rw [isPlainRun, if_neg (by simp [hblank]), hnext, ← hrun]
        rfl

/-! ## Whole scalars -/

/-- Reading on gives at most what there was; to give all of it, no line may end, and the text must go on as a
plain scalar to its end. -/
def Keeps (text gap : List Char) (cells : List Cell) (r : PlainScalar) : Prop :=
  r.text.length + r.rest.length ≤ text.length + gap.length + cells.length ∧
    (r.rest = [] → r.text.length = text.length + gap.length + cells.length →
      gap = [] ∧ cells = [] ∨
        (∀ c ∈ gap ++ chars cells, isBreak c = false) ∧ isPlainRun true (chars cells) = true)

theorem keeps_stop (text gap : List Char) (cells : List Cell) (endsLine : Bool) :
    Keeps text gap cells ⟨text, endsLine, cells⟩ := by
  refine ⟨by simp, fun hrest hlength => .inl ⟨?_, hrest⟩⟩
  rw [← List.length_eq_zero_iff]
  simp at hlength
  omega

theorem isPlainRun_blanks {blanks cs : List Char} (h : ∀ b ∈ blanks, isBlank b = true)
    (hne : blanks ≠ []) (afterGap : Bool) :
    isPlainRun afterGap (blanks ++ cs) = isPlainRun true cs := by
  induction blanks generalizing afterGap with
  | nil => exact absurd rfl hne
  | cons b blanks ih =>
    obtain ⟨hb, hblanks⟩ := List.forall_mem_cons.1 h
    rw [List.cons_append, isPlainRun, if_pos hb]
    cases blanks with
    | nil => rfl
    | cons d blanks => exact ih hblanks (by simp) true

/-- A word that begins no comment may stand behind a gap. -/
theorem isPlainRun_word {c : Char} (hc : isBlank c = false) (hhash : c ≠ '#') (cs : List Char) :
    isPlainRun true (c :: cs) = isPlainRun false (c :: cs) := by
  have hne : (c == '#') = false := beq_eq_false_iff_ne.2 hhash
  simp [isPlainRun, hc, hne]

/-- Behind a word the text ends, or it goes on behind blanks. -/
theorem isPlainRun_behind {blanks more : List Cell} (hblanks : ∀ c ∈ chars blanks, isGap c = true)
    (hstop : blanks = [] → more = [])
    (h : chars blanks = [] ∧ more = [] ∨
      (∀ c ∈ chars blanks ++ chars more, isBreak c = false) ∧ isPlainRun true (chars more) = true) :
    (∀ c ∈ chars (blanks ++ more), isBreak c = false) ∧ isPlainRun false (chars (blanks ++ more)) = true := by
  rw [chars_append]
  rcases h with ⟨hnone, rfl⟩ | ⟨hbreaks, hmore⟩
  · rw [hnone]
    exact ⟨fun c hc => absurd hc List.not_mem_nil, rfl⟩
  · refine ⟨hbreaks, ?_⟩
    have hne : blanks ≠ [] := by
      intro hnil
      rw [hstop hnil] at hmore
      cases hmore
    rw [isPlainRun_blanks (fun b hb => ?_) (by simpa [chars] using hne), hmore]
    have hgap := hblanks b hb
    have hbreak := hbreaks b (List.mem_append_left _ hb)
    simpa [isGap, hbreak] using hgap

/-- Behind a word and a gap the rest decides. -/
theorem keeps_word {read blanks more : List Cell} {r : PlainScalar}
    (hread : read ≠ []) (hcomment : next? (read ++ (blanks ++ more)) ≠ some '#')
    (hsolid : ∀ c ∈ chars read, isGap c = false)
    (hrun : isPlainRun false (chars (read ++ (blanks ++ more))) = isPlainRun false (chars (blanks ++ more)))
    (hblanks : ∀ c ∈ chars blanks, isGap c = true) (hstop : blanks = [] → r.rest = more)
    (hgap : gap.any isBreak = true → (foldGap gap).length < gap.length)
    (h : Keeps (text ++ foldGap gap ++ chars read) (chars blanks) more r) :
    Keeps text gap (read ++ (blanks ++ more)) r := by
  obtain ⟨hle, hall⟩ := h
  have hfold := length_foldGap_le gap
  have hlengths : (chars read).length = read.length ∧ (chars blanks).length = blanks.length := by
    simp [chars]
  simp only [List.length_append, hlengths] at hle hall
  refine ⟨by simp only [List.length_append]; omega, fun hrest hlength => .inr ?_⟩
  simp only [List.length_append] at hlength
  rw [hrest, List.length_nil] at hle
  -- nothing was folded away, so there is no line end in the gap
  have hgapBreaks : ∀ c ∈ gap, isBreak c = false := by
    intro c hc
    rw [Bool.eq_false_iff]
    intro hbreak
    have hlt := hgap (List.any_eq_true.2 ⟨c, hc, hbreak⟩)
    omega
  have hbehind := isPlainRun_behind hblanks (fun hnone => (hstop hnone).symm.trans hrest)
    (hall hrest (by omega))
  have hsolidBreaks : ∀ d ∈ chars read, isBreak d = false := by
    intro d hd
    have hgap := hsolid d hd
    unfold isGap at hgap
    exact (Bool.or_eq_false_iff.1 hgap).2
  refine ⟨?_, ?_⟩
  · rw [chars_append]
    exact List.forall_mem_append.2 ⟨hgapBreaks, List.forall_mem_append.2 ⟨hsolidBreaks, hbehind.1⟩⟩
  · obtain ⟨c, cs, rfl⟩ := List.exists_cons_of_ne_nil hread
    have hc : isBlank c.char = false := by
      have hgap := hsolid c.char (List.mem_cons_self ..)
      unfold isGap at hgap
      exact (Bool.or_eq_false_iff.1 hgap).1
    have hhash : c.char ≠ '#' := fun h => hcomment (congrArg some h)
    exact (isPlainRun_word hc hhash _).trans (hrun.trans hbehind.2)

/-- Behind a word the scalar ends, or a gap is followed by more of it. -/
theorem plainBehind_eq_some {rounds : Nat} {r : PlainScalar}
    (h : plainBehind indent rounds text rest = some r) :
    ∃ blanks more, rest = blanks ++ more ∧ (∀ c ∈ chars blanks, isGap c = true) ∧
      ((∃ endsLine, r = ⟨text, endsLine, more⟩) ∨
        (blanks ≠ [] ∧ (∀ c ∈ more.head?, indent ≤ c.column) ∧
          plainFrom false indent rounds text (chars blanks) more = some r)) := by
  have hblanks : ∀ c ∈ chars (rest.takeWhile (isGap ·.char)), isGap c = true := by
    intro c hc
    obtain ⟨x, hx, rfl⟩ := List.mem_map.1 hc
    exact List.all_eq_true.1 List.all_takeWhile x hx
  refine ⟨rest.takeWhile (isGap ·.char), rest.dropWhile (isGap ·.char),
    List.takeWhile_append_dropWhile.symm, hblanks, ?_⟩
  unfold plainBehind at h
  generalize rest.takeWhile (isGap ·.char) = blanks at *
  generalize rest.dropWhile (isGap ·.char) = more at *
  simp only at h
  split at h
  · obtain rfl := Option.some.inj h
    exact .inl ⟨false, rfl⟩
  · rename_i hne
    obtain ⟨-, -, h⟩ := Option.bind_eq_some_iff.1 h
    split at h
    · obtain rfl := Option.some.inj h
      exact .inl ⟨_, rfl⟩
    · rename_i hcolumn
      refine .inr ⟨by simpa using hne, fun c hc => ?_, h⟩
      rw [Option.any_eq_true] at hcolumn
      by_contra hlt
      exact hcolumn ⟨c, hc, by simpa using hlt⟩

theorem plainFrom_keeps {rounds : Nat} {r : PlainScalar} (hindent : 0 < indent) (hlaid : Laid cells)
    (hgap : cells ≠ [] → gap.any isBreak = true → (foldGap gap).length < gap.length)
    (h : plainFrom false indent rounds text gap cells = some r) : Keeps text gap cells r := by
  induction rounds generalizing text gap cells with
  | zero => cases h
  | succ rounds ih =>
    by_cases hstart : (isDocumentMarker cells || decide (next? cells = some '#')) = true
    · rw [plainFrom, if_pos hstart] at h
      obtain rfl := Option.some.inj h
      exact keeps_stop ..
    simp only [Bool.or_eq_true, decide_eq_true_eq, not_or, Bool.not_eq_true] at hstart
    cases hword : plainWord false cells with
    | none =>
      rw [plainFrom, if_neg (by simp [hstart]), hword] at h
      cases h
    | some read =>
      obtain ⟨word, rest⟩ := read
      obtain ⟨read, rfl, rfl, hsolid, hrun⟩ := plainWord_eq_some hword
      by_cases hread : read = []
      · subst hread
        rw [List.nil_append] at *
        rw [plainFrom, if_neg (by simp [hstart]), hword] at h
        obtain rfl := Option.some.inj h
        exact keeps_stop ..
      rw [plainFrom_succ hstart.1 hstart.2 hword (by simpa [chars] using hread)] at h
      obtain ⟨blanks, more, rfl, hblanks, hbehind⟩ := plainBehind_eq_some h
      have hgap' := hgap (by simp [hread])
      rcases hbehind with ⟨endsLine, rfl⟩ | ⟨hne, hcolumn, hmore⟩
      · exact keeps_word hread hstart.2 hsolid hrun hblanks (fun _ => rfl) hgap' (keeps_stop ..)
      · refine keeps_word hread hstart.2 hsolid hrun hblanks (fun h => absurd h hne) hgap' ?_
        refine ih hlaid.of_append.of_append (fun hsome hbreak => ?_) hmore
        obtain ⟨c, more, rfl⟩ := List.exists_cons_of_ne_nil hsome
        refine length_foldGap_lt hlaid.of_append ?_ hbreak
        have := hcolumn c rfl
        omega

/-! ## Cells of any text -/

theorem column_cellsFrom (text : List Char) :
    ∀ c ∈ (cellsFrom line column text).head?, c.column = column := by
  fun_cases cellsFrom line column text <;> simp_all

theorem Laid.cons {c : Cell} (h : Laid cells)
    (hc : ∀ d ∈ cells.head?, isBreak c.char = true → d.column = 0) : Laid (c :: cells) := by
  cases cells with
  | nil => exact .singleton c
  | cons d cells => exact .cons_cons (hc d rfl) h

theorem laid_cellsFrom (line column : Nat) (text : List Char) : Laid (cellsFrom line column text) := by
  fun_induction cellsFrom line column text with
  | case1 => exact .nil
  | case2 line column rest ih | case3 line column c rest _ _ ih | case4 line column c rest _ _ _ ih =>
    exact ih.cons fun d hd _ => column_cellsFrom rest d hd
  | case5 line column c rest _ hbreak _ ih => exact ih.cons fun _ _ h => absurd h hbreak

theorem length_cellsFrom_le (line column : Nat) (text : List Char) :
    (cellsFrom line column text).length ≤ text.length := by
  fun_induction cellsFrom line column text <;> simp only [List.length_cons, List.length_nil] <;> omega

/-- A text without line ends among its cells stands on one line. -/
theorem onOneLine_of_cells {text : List Char}
    (h : ∀ c ∈ chars (cellsFrom line column text), isBreak c = false) : OnOneLine text := by
  fun_induction cellsFrom line column text with
  | case1 => exact fun c hc => absurd hc List.not_mem_nil
  | case2 line column rest ih => exact absurd (h '\n' (List.mem_cons_self ..)) (by decide)
  | case3 line column c rest _ hbreak ih => exact absurd (h c (List.mem_cons_self ..)) (by simp [hbreak])
  | case4 line column c rest _ _ _ ih => exact absurd (h '\n' (List.mem_cons_self ..)) (by decide)
  | case5 line column c rest _ hbreak hend ih =>
    refine List.forall_mem_cons.2 ⟨?_, ih fun d hd => h d (List.mem_cons_of_mem _ hd)⟩
    rw [not_or] at hend
    simp [isLineEnd, hbreak, hend.1, hend.2]

/-! ## Tokens -/

theorem exists_of_tagToken? {t : Token} (h : tagToken? cells = some (t, rest)) :
    ∃ handle suffix, t = .tag handle suffix := by
  unfold tagToken? at h
  split at h
  · obtain ⟨⟨text, rest⟩, -, h⟩ := Option.bind_eq_some_iff.1 h
    obtain ⟨-, -, h⟩ := Option.bind_eq_some_iff.1 h
    obtain ⟨rfl, -⟩ := Prod.mk.inj (Option.some.inj h)
    exact ⟨_, _, rfl⟩
  · simp only at h
    split at h
    · obtain ⟨⟨text, rest⟩, -, h⟩ := Option.bind_eq_some_iff.1 h
      obtain ⟨-, -, h⟩ := Option.bind_eq_some_iff.1 h
      obtain ⟨rfl, -⟩ := Prod.mk.inj (Option.some.inj h)
      exact ⟨_, _, rfl⟩
    · obtain ⟨⟨text, rest⟩, -, h⟩ := Option.bind_eq_some_iff.1 h
      obtain ⟨rfl, -⟩ := Prod.mk.inj (Option.some.inj h)
      split <;> exact ⟨_, _, rfl⟩

theorem isPlainFirst_of_beginsPlain {ch : Char} (h : Lexer.beginsPlain false ch rest = true)
    (hdash : ch = '-' → beforeGap rest = false) : isPlainFirst ch (chars rest) = true := by
  have hmark : ch = '-' ∨ ch = '?' ∨ ch = ':' → beforeGap rest = false := by
    rintro (rfl | rfl | rfl)
    · exact hdash rfl
    · simpa [Lexer.beginsPlain] using h
    · simpa [Lexer.beginsPlain] using h
  by_cases hch : ch = '-' ∨ ch = '?' ∨ ch = ':'
  · have hgap := hmark hch
    unfold isPlainFirst
    rw [if_pos (by simpa [or_assoc] using hch)]
    cases rest with
    | nil => cases hgap
    | cons d rest =>
      have hblank : isBlank d.char = false := by
        simp only [beforeGap, next?, List.head?_cons, Option.map_some, Option.all_some, isGap,
          Bool.or_eq_false_iff] at hgap
        exact hgap.1
      simp [chars, hblank]
  · simp only [not_or] at hch
    simpa [Lexer.beginsPlain, isPlainFirst, hch] using h

/-- Behind a colon only the branch for plain scalars cuts off one plain scalar. -/
theorem token_eq_plain {l' : Lexer} {c : Cell} {tail : List Cell} {t : String} (hcolumn : c.column ≠ 0)
    (h : Lexer.token { indent, outerIndents := [-1], keyAllowed := false } c rest = some (l', tail))
    (hentries : l'.entries = [.token (.scalar true t)]) :
    isPlainFirst c.char (chars rest) = true ∧
      ∃ s, plain? false (indent + 1) (c :: rest) = some s ∧ s.rest = tail ∧ String.ofList s.text = t := by
  have hmarker := isDocumentMarker_of_column hcolumn rest
  simp only [isDocumentMarker, Bool.or_eq_false_iff] at hmarker
  have hfound : ∀ {l₁ : Lexer} {rest₁ : List Cell}, some (l₁, rest₁) = some (l', tail) →
      l₁.entries = [.token (.scalar true t)] := by
    intro l₁ rest₁ heq
    obtain ⟨rfl, -⟩ := Prod.mk.inj (Option.some.inj heq)
    exact hentries
  unfold Lexer.token at h
  simp [hmarker, hcolumn, Lexer.openFlow, Lexer.closeFlow, Lexer.noteCandidate, Lexer.dropCandidate,
    Lexer.inFlow, Lexer.emit, Lexer.item, Lexer.value, Lexer.node, guard] at h
  have hother : ∀ {p : Prop} [Decidable p] {a b : Option (Lexer × List Cell)},
      (if p then a else b) = some (l', tail) → a ≠ some (l', tail) → ¬p ∧ b = some (l', tail) := by
    intro p _ a b heq ha
    split at heq
    · exact absurd heq ha
    · exact ⟨‹¬p›, heq⟩
  -- brackets and commas
  obtain ⟨hopen, h⟩ := hother h fun heq => absurd (hfound heq) (by simp)
  obtain ⟨hbrace, h⟩ := hother h fun heq => absurd (hfound heq) (by simp)
  obtain ⟨hclose, h⟩ := hother h fun heq => absurd (hfound heq) (by simp)
  obtain ⟨hunbrace, h⟩ := hother h fun heq => absurd (hfound heq) (by simp)
  obtain ⟨hcomma, h⟩ := hother h fun heq => absurd (hfound heq) (by simp)
  -- indicators with a gap behind them
  obtain ⟨hdash, h⟩ := hother h (by simp)
  obtain ⟨hquestion, h⟩ := hother h (by simp)
  obtain ⟨hcolon, h⟩ := hother h (by simp)
  -- aliases, anchors, tags, blocks and quotes
  have hread : ∀ {α : Type} {read : Option α} {next : α → Option (Lexer × List Cell)},
      (∀ x, read = some x → next x ≠ some (l', tail)) → read.bind next ≠ some (l', tail) := by
    intro α read next hnext heq
    obtain ⟨x, hx, heq⟩ := Option.bind_eq_some_iff.1 heq
    exact hnext x hx heq
  obtain ⟨halias, h⟩ := hother h (hread fun x _ heq => absurd (hfound heq) (by simp))
  obtain ⟨hanchor, h⟩ := hother h (hread fun x _ heq => absurd (hfound heq) (by simp))
  obtain ⟨htag, h⟩ := hother h (hread fun x hx => hread fun _ _ heq => by
    obtain ⟨handle, suffix, htag⟩ := exists_of_tagToken? hx
    exact absurd (hfound heq) (by simp [htag]))
  obtain ⟨hblock, h⟩ := hother h (hread fun x _ heq => absurd (hfound heq) (by simp))
  obtain ⟨hquote, h⟩ := hother h (hread fun x _ heq => absurd (hfound heq) (by simp))
  obtain ⟨hbegins, h⟩ | ⟨-, h⟩ := ite_eq_iff.1 h
  · obtain ⟨s, hplain, h⟩ := Option.bind_eq_some_iff.1 h
    have htext := hfound h
    obtain ⟨-, hrest⟩ := Prod.mk.inj (Option.some.inj h)
    exact ⟨isPlainFirst_of_beginsPlain hbegins (by simpa using hdash), s, hplain, hrest,
      by simpa using htext⟩
  · cases h

/-! ## Values -/

variable {column : Nat} {s : String}

/-- What is read without a loss has the form of a plain scalar. -/
theorem isPlainForm_of_token {l' : Lexer} {c : Cell} (hadmitted : ∀ d ∈ s.toList, isAdmitted d = true)
    (hcells : cellsFrom 0 column s.toList = c :: rest) (hcolumn : 0 < column) (hindent : 0 ≤ indent)
    (htoken : Lexer.token { indent, outerIndents := [-1], keyAllowed := false } c rest = some (l', []))
    (hentries : l'.entries = [.token (.scalar true s)]) : isPlainForm s.toList = true := by
  have hhead : c.column = column := column_cellsFrom s.toList c (by rw [hcells]; rfl)
  have hlength := length_cellsFrom_le 0 column s.toList
  have hlaid := laid_cellsFrom 0 column s.toList
  obtain ⟨hfirst, r, hplain, hrest, htext⟩ := token_eq_plain (by omega) htoken hentries
  obtain ⟨hle, hall⟩ := plainFrom_keeps (by omega) (hcells ▸ hlaid) (fun _ h => by cases h) hplain
  have htext : r.text = s.toList := by rw [← htext, String.toList_ofList]
  rw [hcells] at hlength
  rw [htext, hrest] at hle
  simp only [List.length_nil, Nat.zero_add, Nat.add_zero] at hle
  obtain ⟨-, hnone⟩ | ⟨hbreaks, hrun⟩ := hall hrest (by rw [htext]; simp only [List.length_nil]; omega)
  · cases hnone
  · rw [List.nil_append, ← hcells] at hbreaks
    have hline := onOneLine_of_cells hbreaks
    have hrow := cellsFrom_row 0 column hline []
    rw [List.append_nil, hcells] at hrow
    have hchars : c.char :: chars rest = s.toList := by
      have hchars := congrArg chars hrow
      rw [chars_append, chars_row] at hchars
      exact hchars.trans (List.append_nil _)
    unfold isPlainForm
    rw [← hchars] at hadmitted hline ⊢
    simp only [Bool.and_eq_true, List.all_eq_true, Bool.not_eq_true']
    exact ⟨⟨fun d hd => ⟨hadmitted d hd, hline d hd⟩, hfirst⟩, hrun⟩

/-- What has the form of a plain scalar is read without a loss. -/
theorem token_of_isPlainForm (indent : Int) (hform : isPlainForm s.toList = true) (hcolumn : 0 < column)
    (hindent : indent + 1 ≤ column) :
    ∃ c rest, cellsFrom 0 column s.toList = c :: rest ∧
      Lexer.token { indent, outerIndents := [-1], keyAllowed := false } c rest =
        some ({ entries := [.token (.scalar true s)], indent, outerIndents := [-1], keyAllowed := false },
          []) := by
  obtain ⟨c, more, hcs, -, hline, hfirst, hblank, hrun⟩ := parts_of_isPlainForm hform
  have hcells : cellsFrom 0 column s.toList = ⟨c, 0, column⟩ :: row 0 (column + 1) more := by
    have hrow := cellsFrom_row 0 column hline []
    rw [List.append_nil] at hrow
    rw [hrow, hcs, row_cons]
    exact List.append_nil _
  rw [hcs] at hline hrun
  obtain ⟨left, hleft⟩ := plainFrom_row 0 column (row 0 column (c :: more)).length [] [] [] hcolumn
    hindent hline hblank hrun rfl (by simp)
  have htext : [] ++ foldGap [] ++ c :: more = s.toList := hcs.symm
  rw [plainBehind_nil, List.append_nil, htext] at hleft
  have hplain : plain? false (indent + 1) (⟨c, 0, column⟩ :: (row 0 (column + 1) more ++ [])) =
      some { text := s.toList, endsLine := false, rest := [] } := by
    rw [List.append_nil]
    exact hleft
  have hmarker : isDocumentMarker (⟨c, 0, column⟩ :: (row 0 (column + 1) more ++ [])) = false :=
    isDocumentMarker_of_column (Nat.pos_iff_ne_zero.1 hcolumn) _
  have htoken := Lexer.token_plain (l := { indent, outerIndents := [-1], keyAllowed := false })
    0 (column + 1) [] rfl hmarker (fun d hd => hline d (List.mem_cons_of_mem c hd)) hfirst hplain
    (Lexer.node_of_not_allowed rfl _ _)
  rw [List.append_nil, String.ofList_toList] at htoken
  exact ⟨_, _, hcells, htoken⟩

/-- **A text stands for itself without quotes if and only if** it has the form of a plain scalar and the schema
takes it for a text. -/
theorem plainValue?_eq_some_iff {indent : Nat} (hcolumn : indent < column) :
    plainValue? indent column s = some s ↔ IsPlainText s := by
  constructor
  · intro h
    unfold plainValue? at h
    split at h
    · rename_i hadmitted
      split at h
      · cases h
      · rename_i c rest hcells
        split at h
        · rename_i text heq
          split at h
          · rename_i htext
            obtain rfl := Option.some.inj h
            exact ⟨isPlainForm_of_token (List.all_eq_true.1 hadmitted) hcells (Nat.zero_lt_of_lt hcolumn)
              (Int.natCast_nonneg _) heq rfl, htext⟩
          · cases h
        · cases h
    · cases h
  · rintro ⟨hform, htext⟩
    obtain ⟨c, rest, hcells, htoken⟩ := token_of_isPlainForm indent hform
      (Nat.zero_lt_of_lt hcolumn) (by omega)
    obtain ⟨-, -, -, hadmitted, -⟩ := parts_of_isPlainForm hform
    unfold plainValue?
    rw [if_pos (List.all_eq_true.2 hadmitted), hcells]
    simp only [htoken, htext, if_true]

end ApiModel.Yaml
