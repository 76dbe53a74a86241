import ApiModel.Json
import ApiModel.Proofs.Yaml.PlainScalar

/-!
# Quoted scalars on one line

A text between quotes, escaped as in a string of JSON, is a quoted scalar for that text, as long as every
character that stands for itself may stand in a line of a YAML text.

Principal results:

* `doubleWord_escapeChar` — one escaped character is read back;
* `quoted?_row` — **an escaped text is read back**.
-/

namespace ApiModel.Yaml

open Json

/-- A character that can be written in a quoted scalar as it is written in a string of JSON. -/
def isQuotable (c : Char) : Bool := (escapeChar c).all fun d => isAdmitted d && !isLineEnd d

/-- The characters of the text can be written in a quoted scalar. -/
def Quotable (cs : List Char) : Prop := ∀ c ∈ cs, isQuotable c = true

instance (cs : List Char) : Decidable (Quotable cs) :=
  List.decidableBAll _ cs

variable {line column : Nat} {cs text : List Char} {c : Char} {rest tail : List Cell}

/-! ## Characters -/

/-- Two digits that a control character is written with. -/
theorem coded?_of_control {n : Nat} (h : n < 0x20) :
    Text.coded? 4 ['0', '0', hexDigit (n / 16), hexDigit (n % 16)] = some (Char.ofNat n) := by
  have hall : ∀ n < 0x20, Text.coded? 4 ['0', '0', hexDigit (n / 16), hexDigit (n % 16)] =
      some (Char.ofNat n) := by decide +kernel
  exact hall n h

/-- What a character is escaped as: a letter behind a backslash, a code, or itself. -/
theorem escapeChar_cases (c : Char) :
    (∃ d, escapeChar c = ['\\', d] ∧ escaped? d = some c ∧ isBreak d = false) ∨
      (c.toNat < 0x20 ∧
        escapeChar c = ['\\', 'u', '0', '0', hexDigit (c.toNat / 16), hexDigit (c.toNat % 16)]) ∨
      (escapeChar c = [c] ∧ c ≠ '"' ∧ c ≠ '\\' ∧ c ≠ '\t' ∧ c ≠ '\n') := by
  unfold escapeChar
  split
  · exact .inl ⟨'"', rfl, by simp_all [escaped?], by decide⟩
  split
  · exact .inl ⟨'\\', rfl, by simp_all [escaped?], by decide⟩
  split
  · exact .inl ⟨'n', rfl, by simp_all [escaped?], by decide⟩
  split
  · exact .inl ⟨'r', rfl, by simp_all [escaped?], by decide⟩
  split
  · exact .inl ⟨'t', rfl, by simp_all [escaped?], by decide⟩
  split
  · exact .inl ⟨'b', rfl, by simp_all [escaped?], by decide⟩
  split
  · exact .inl ⟨'f', rfl, by simp_all [escaped?], by decide⟩
  split
  · rename_i hcontrol
    exact .inr (.inl ⟨hcontrol, rfl⟩)
  · exact .inr (.inr ⟨rfl, by assumption, by assumption, by assumption, by assumption⟩)

theorem doubleWord_escaped {b d : Cell} {x : Char} (hb : b.char = '\\')
    (hbreak : isBreak d.char = false) (hescaped : escaped? d.char = some x) :
    doubleWord (b :: d :: rest) = (doubleWord rest).map (·.push x) := by
  rw [doubleWord.eq_def]
  simp [hb, hbreak, hescaped, show isGap '\\' = false from rfl]

theorem doubleWord_coded {b d : Cell} {x : Char} (hb : b.char = '\\') (hd : d.char = 'u')
    (hcode : Text.coded? 4 (chars (rest.take 4)) = some x) :
    doubleWord (b :: d :: rest) = (doubleWord (rest.drop 4)).map (·.push x) := by
  rw [doubleWord.eq_def]
  simp [hb, hd, hcode, show isGap '\\' = false from rfl, show isBreak 'u' = false from rfl,
    show escaped? 'u' = none from rfl, show codeLength? 'u' = some 4 from rfl]

theorem doubleWord_itself {d : Cell} (hgap : isGap d.char = false) (hquote : d.char ≠ '"')
    (hback : d.char ≠ '\\') :
    doubleWord (d :: rest) = (doubleWord rest).map (·.push d.char) := by
  rw [doubleWord.eq_def]
  simp [hgap, hquote, hback]

theorem isGap_of_quotable (h : isQuotable c = true) (heq : escapeChar c = [c]) (hspace : c ≠ ' ')
    (htab : c ≠ '\t') : isGap c = false := by
  unfold isQuotable at h
  rw [heq] at h
  simp only [List.all_cons, List.all_nil, Bool.and_true, Bool.and_eq_true, Bool.not_eq_true'] at h
  rw [isGap_of_onOneLine h.2]
  simp [isBlank, hspace, htab]

/-- **One escaped character is read back.** -/
theorem doubleWord_escapeChar (h : isQuotable c = true) (hspace : c ≠ ' ') :
    doubleWord (row line column (escapeChar c) ++ rest) = (doubleWord rest).map (·.push c) := by
  rcases escapeChar_cases c with ⟨d, heq, hescaped, hbreak⟩ | ⟨hcontrol, heq⟩ | ⟨heq, hquote, hback, htab, -⟩
  · rw [heq]
    exact doubleWord_escaped rfl hbreak hescaped
  · have hcode := coded?_of_control hcontrol
    rw [Char.ofNat_toNat] at hcode
    rw [heq]
    exact doubleWord_coded rfl rfl hcode
  · rw [heq]
    exact doubleWord_itself (isGap_of_quotable h heq hspace htab) hquote hback

/-- A word goes on to a blank or to the closing quote. -/
theorem doubleWord_row (line column : Nat) (rest : List Cell) (hquotable : Quotable cs) (hspace : ∀ c ∈ cs, c ≠ ' ')
    (hend : ∀ d ∈ rest.head?, isGap d.char = true ∨ d.char = '"') :
    doubleWord (row line column (cs.flatMap escapeChar) ++ rest) = some ⟨cs, false, rest⟩ := by
  induction cs generalizing column with
  | nil =>
    cases rest with
    | nil => rw [List.flatMap_nil, row_nil, List.nil_append, doubleWord.eq_def]
    | cons d rest =>
      have hstop : (isGap d.char || d.char == '"') = true := by simpa using hend d rfl
      rw [List.flatMap_nil, row_nil, List.nil_append, doubleWord.eq_def]
      simp only [if_pos hstop]
  | cons c cs ih =>
    obtain ⟨hc, hcs⟩ := List.forall_mem_cons.1 hquotable
    obtain ⟨hcspace, hcsspace⟩ := List.forall_mem_cons.1 hspace
    rw [List.flatMap_cons, row_append, List.append_assoc, doubleWord_escapeChar hc hcspace,
      ih _ hcs hcsspace]
    rfl

/-! ## Whole scalars -/

theorem length_le_escaped (cs : List Char) : cs.length ≤ (cs.flatMap escapeChar).length := by
  induction cs with
  | nil => exact Nat.le_refl _
  | cons c cs ih =>
    have hpos : 0 < (escapeChar c).length := by
      rcases escapeChar_cases c with ⟨d, heq, -⟩ | ⟨-, heq⟩ | ⟨heq, -⟩ <;> simp [heq]
    rw [List.flatMap_cons, List.length_append, List.length_cons]
    omega

/-- Behind blanks an escaped text goes on with a word or with the closing quote. -/
theorem head_escaped (hquotable : Quotable cs) (hspace : ∀ c ∈ cs.head?, c ≠ ' ') :
    ∃ c behind, cs.flatMap escapeChar ++ ['"'] = c :: behind ∧ isGap c = false := by
  cases cs with
  | nil => exact ⟨'"', [], rfl, rfl⟩
  | cons c cs =>
    have hc := hquotable c (List.mem_cons_self ..)
    rcases escapeChar_cases c with ⟨x, heq, -⟩ | ⟨-, heq⟩ | ⟨heq, -, -, htab, -⟩
    · exact ⟨'\\', _, by rw [List.flatMap_cons, heq]; rfl, rfl⟩
    · exact ⟨'\\', _, by rw [List.flatMap_cons, heq]; rfl, rfl⟩
    · exact ⟨c, _, by rw [List.flatMap_cons, heq]; rfl, isGap_of_quotable hc heq (hspace c rfl) htab⟩

theorem escaped_spaces (n : Nat) : (List.replicate n ' ').flatMap escapeChar = List.replicate n ' ' := by
  induction n with
  | zero => rfl
  | succ n ih =>
    rw [List.replicate_succ, List.flatMap_cons, ih]
    rfl

/-- The first word of a text, the spaces behind it, and the rest. -/
theorem exists_quotedWords (cs : List Char) :
    ∃ word n more, cs = word ++ (List.replicate n ' ' ++ more) ∧ (∀ c ∈ word, c ≠ ' ') ∧
      (∀ c ∈ more.head?, c ≠ ' ') ∧ (n = 0 → more = []) := by
  have hspaces : ∀ c ∈ (cs.dropWhile (· != ' ')).takeWhile (· == ' '), c = ' ' := by
    intro c hc
    simpa using List.all_eq_true.1 List.all_takeWhile c hc
  refine ⟨cs.takeWhile (· != ' '), ((cs.dropWhile (· != ' ')).takeWhile (· == ' ')).length,
    (cs.dropWhile (· != ' ')).dropWhile (· == ' '), ?_, ?_, ?_, ?_⟩
  · rw [← List.eq_replicate_of_mem hspaces, List.takeWhile_append_dropWhile,
      List.takeWhile_append_dropWhile]
  · intro c hc
    simpa using List.all_eq_true.1 List.all_takeWhile c hc
  · intro c hc
    have hhead := List.head?_dropWhile_not (· == ' ') (cs.dropWhile (· != ' '))
    rw [hc] at hhead
    simpa using hhead
  · intro hnone
    have hhead := List.head?_dropWhile_not (· != ' ') cs
    cases hdrop : cs.dropWhile (· != ' ') with
    | nil => rfl
    | cons c more =>
      rw [hdrop] at hhead hnone
      simp only [List.head?_cons] at hhead
      have hc : c = ' ' := by simpa using hhead
      simp [hc] at hnone

/-- A round reads a word. -/
theorem quotedFrom_succ {rounds : Nat} {cells : List Cell} {word : QuotedWord}
    (hmarker : isDocumentMarker cells = false) (hne : cells ≠ []) (hword : doubleWord cells = some word)
    (hquote : next? word.rest ≠ some '"') (hcontinued : word.continued = false) :
    quotedFrom '"' (rounds + 1) text cells =
      quotedFrom '"' rounds
        (text ++ word.text ++ foldGap (chars (word.rest.takeWhile (isGap ·.char))))
        (word.rest.dropWhile (isGap ·.char)) := by
  have hempty : cells.isEmpty = false := by simpa using hne
  rw [quotedFrom, hmarker, hempty, if_pos rfl, hword]
  simp only [Option.bind_eq_bind, Option.bind_some, hquote, hcontinued]
  rfl

theorem quotedFrom_last {rounds : Nat} {cells : List Cell} {word : QuotedWord}
    (hmarker : isDocumentMarker cells = false) (hne : cells ≠ []) (hword : doubleWord cells = some word)
    (hquote : next? word.rest = some '"') :
    quotedFrom '"' (rounds + 1) text cells = some (text ++ word.text, word.rest.drop 1) := by
  have hempty : cells.isEmpty = false := by simpa using hne
  rw [quotedFrom, hmarker, hempty, if_pos rfl, hword]
  simp only [Option.bind_eq_bind, Option.bind_some, hquote]
  rfl

/-- What an escaped text and its quote are read from is no end of a document. -/
theorem cells_of_escaped (line : Nat) (cs : List Char) (tail : List Cell) (hcolumn : 0 < column) :
    row line column (cs.flatMap escapeChar ++ ['"']) ++ tail ≠ [] ∧
      isDocumentMarker (row line column (cs.flatMap escapeChar ++ ['"']) ++ tail) = false := by
  cases hescaped : cs.flatMap escapeChar ++ ['"'] with
  | nil => simp at hescaped
  | cons c escaped =>
    exact ⟨List.cons_ne_nil _ _,
      isDocumentMarker_of_column (c := ⟨c, line, column⟩) (Nat.ne_of_gt hcolumn) _⟩

/-- The last word is read with the closing quote. -/
theorem quotedFrom_word {rounds : Nat} (hcolumn : 0 < column) (hquotable : Quotable cs)
    (hspace : ∀ c ∈ cs, c ≠ ' ') :
    quotedFrom '"' (rounds + 1) text (row line column (cs.flatMap escapeChar ++ ['"']) ++ tail) =
      some (text ++ cs, tail) := by
  obtain ⟨hne, hmarker⟩ := cells_of_escaped line cs tail hcolumn
  have hread := doubleWord_row line column
    (row line (column + (cs.flatMap escapeChar).length) ['"'] ++ tail) hquotable hspace
    fun d hd => .inr (Option.some.inj hd ▸ rfl)
  rw [row_append, List.append_assoc] at hne hmarker ⊢
  exact quotedFrom_last hmarker hne hread rfl

/-- Every other word is read with the spaces behind it. -/
theorem quotedFrom_spaces {rounds n : Nat} {word more : List Char} (hcolumn : 0 < column)
    (hword : Quotable word) (hspace : ∀ c ∈ word, c ≠ ' ') (hmore : Quotable more)
    (hstop : ∀ c ∈ more.head?, c ≠ ' ') (hn : n ≠ 0) :
    ∃ start, 0 < start ∧
      quotedFrom '"' (rounds + 1) text
          (row line column ((word ++ (List.replicate n ' ' ++ more)).flatMap escapeChar ++ ['"']) ++ tail) =
        quotedFrom '"' rounds (text ++ word ++ List.replicate n ' ')
          (row line start (more.flatMap escapeChar ++ ['"']) ++ tail) := by
  obtain ⟨hne, hmarker⟩ := cells_of_escaped line (word ++ (List.replicate n ' ' ++ more)) tail hcolumn
  obtain ⟨c, behind, hhead, hgap⟩ := head_escaped hmore hstop
  -- the cells of the word, of the spaces and of the rest
  rw [List.flatMap_append, List.flatMap_append, escaped_spaces, List.append_assoc, List.append_assoc,
    row_append, row_append, List.length_replicate, List.append_assoc, List.append_assoc] at hne hmarker ⊢
  generalize column + (word.flatMap escapeChar).length = middle at *
  have hblank : ∀ x ∈ (row line middle (List.replicate n ' ') ++
      (row line (middle + n) (more.flatMap escapeChar ++ ['"']) ++ tail)).head?, x.char = ' ' := by
    obtain ⟨k, rfl⟩ := Nat.exists_eq_succ_of_ne_zero hn
    intro x hx
    rw [← Option.some.inj hx]
  have hquote : next? (row line middle (List.replicate n ' ') ++
      (row line (middle + n) (more.flatMap escapeChar ++ ['"']) ++ tail)) ≠ some '"' := by
    intro h
    obtain ⟨x, hx, hchar⟩ := Option.map_eq_some_iff.1 h
    rw [hblank x hx] at hchar
    exact absurd hchar (by decide)
  have hgaps : ∀ x ∈ row line middle (List.replicate n ' '), isGap x.char = true := by
    intro x hx
    rw [List.eq_of_mem_replicate (mem_row hx)]
    rfl
  have hrest : ∀ x ∈ (row line (middle + n) (more.flatMap escapeChar ++ ['"']) ++ tail).head?,
      isGap x.char = false := by
    intro x hx
    rw [hhead] at hx
    obtain rfl := Option.some.inj hx
    exact hgap
  have hread := doubleWord_row line column (row line middle (List.replicate n ' ') ++
    (row line (middle + n) (more.flatMap escapeChar ++ ['"']) ++ tail)) hword hspace
    fun x hx => .inl (by rw [hblank x hx]; rfl)
  refine ⟨middle + n, by omega, ?_⟩
  rw [quotedFrom_succ hmarker hne hread hquote rfl]
  simp only [takeWhile_gap hgaps hrest, dropWhile_gap hgaps hrest, chars_row,
    foldGap_of_onOneLine (onOneLine_replicate n)]

/-- **The words of an escaped text are read up to the closing quote.** -/
theorem quotedFrom_row {rounds : Nat} (hcolumn : 0 < column) (hquotable : Quotable cs)
    (hrounds : cs.length < rounds) :
    quotedFrom '"' rounds text (row line column (cs.flatMap escapeChar ++ ['"']) ++ tail) =
      some (text ++ cs, tail) := by
  induction rounds generalizing cs column text with
  | zero => omega
  | succ rounds ih =>
    obtain ⟨word, n, more, rfl, hspace, hstop, hlast⟩ := exists_quotedWords cs
    have hword : Quotable word := fun c hc => hquotable c (List.mem_append_left _ hc)
    have hmore : Quotable more := fun c hc =>
      hquotable c (List.mem_append_right _ (List.mem_append_right _ hc))
    by_cases hn : n = 0
    · obtain rfl := hlast hn
      subst hn
      rw [List.replicate_zero, List.append_nil, List.append_nil]
      exact quotedFrom_word hcolumn hword hspace
    · obtain ⟨start, hstart, hround⟩ := quotedFrom_spaces hcolumn hword hspace hmore hstop hn
      have hlength : more.length < rounds := by
        simp only [List.length_append, List.length_replicate] at hrounds
        omega
      rw [hround, ih hstart hmore hlength]
      simp only [List.append_assoc]

/-- **An escaped text is read back.** -/
theorem quoted?_row (line column : Nat) (tail : List Cell) (hcolumn : 0 < column) (hquotable : Quotable cs) :
    quoted? '"' (row line column (cs.flatMap escapeChar ++ ['"']) ++ tail) = some (cs, tail) := by
  have hlength := length_le_escaped cs
  unfold quoted?
  rw [quotedFrom_row hcolumn hquotable]
  · rfl
  · simp only [List.length_append, length_row, List.length_cons, List.length_nil]
    omega

theorem toList_quote (s : String) :
    (quote s).toList = '"' :: (s.toList.flatMap escapeChar ++ ['"']) := by
  unfold quote
  rw [String.toList_ofList]
  rfl

/-- What is quotable is written on one line, in characters that a text may hold. -/
theorem isLine_quote {s : String} (h : Quotable s.toList) : IsLine (quote s).toList := by
  intro d hd
  rw [toList_quote] at hd
  rcases List.mem_cons.1 hd with rfl | hd
  · decide
  rcases List.mem_append.1 hd with hd | hd
  · obtain ⟨c, hc, hd⟩ := List.mem_flatMap.1 hd
    have hall := List.all_eq_true.1 (h c hc) d hd
    simpa using hall
  · rw [List.mem_singleton.1 hd]
    decide

end ApiModel.Yaml
