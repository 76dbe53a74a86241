import ApiModel.Proofs.Yaml.QuotedScalar

/-!
# Documents in block style

A document in which mappings and sequences of mappings are laid out in lines and indentation shows what
belongs together.  A line is an entry of a mapping: a key and a colon, behind them perhaps a value, and in
front of the first entry of an item a dash.

`Block.lines` lays a document out, `Block.tokens` and `Block.node` are what it consists of for a reader.

Principal result: `tokensFrom_entries` — **the tokens of the lines of a document are its tokens**: blocks
begin where the indentation grows and end where it falls.
-/

namespace ApiModel.Yaml

/-! ## Values on a line -/

/-- A value that stands behind its key. -/
inductive Inline where
  | plain (text : String)
  | quoted (text : String)
  | list (texts : List String)

namespace Inline

def text : Inline → String
  | .plain s => s
  | .quoted s => Json.quote s
  | .list ss => (Json.strings ss).compact

/-- The tokens of the items of a list behind the first one. -/
def moreItems (ss : List String) : List Token := ss.flatMap fun s => [.flowEntry, .scalar false s]

def items : List String → List Token
  | [] => []
  | s :: ss => .scalar false s :: moreItems ss

def tokens : Inline → List Token
  | .plain s => [.scalar true s]
  | .quoted s => [.scalar false s]
  | .list ss => .flowSequenceStart :: items ss ++ [.flowSequenceEnd]

def node : Inline → Node
  | .plain s => .scalar true none s
  | .quoted s => .scalar false none s
  | .list ss => .sequence (ss.map (.scalar false none ·))

end Inline

/-! ## Lines -/

/-- An entry of a mapping on its line. -/
structure Line where
  /-- Where the key stands. -/
  column : Nat
  /-- A dash stands two columns in front of the key. -/
  dash : Bool
  key : String
  /-- The value behind the key; without one, a block follows. -/
  value : Option Inline

namespace Line

/-- Where the line begins behind its indentation. -/
def start (l : Line) : Nat := if l.dash then l.column - 2 else l.column

/-- The text of the line behind its indentation. -/
def body (l : Line) : String :=
  (if l.dash then "- " else "") ++ l.key ++ ":" ++ l.value.elim "" (" " ++ ·.text)

/-- The line with its indentation, behind a line feed. -/
def text (l : Line) : String := "\n" ++ String.ofList (List.replicate l.start ' ') ++ l.body

end Line

/-! ## Open blocks -/

/-- A block begins at a column: every open one is indented less. -/
def opens (open_ : List Nat) (column : Nat) : Bool := open_.head?.all (· < column)

/-- The ends of the blocks that are indented further than a column. -/
def closing (open_ : List Nat) (column : Nat) : List Token :=
  (open_.takeWhile (column < ·)).map fun _ => .blockEnd

/-- What stays open. -/
def closed (open_ : List Nat) (column : Nat) : List Nat := open_.dropWhile (column < ·)

/-- The start of a block, if one begins at a column. -/
def opening (open_ : List Nat) (column : Nat) (start : Token) : List Token :=
  if opens open_ column then [start] else []

/-- What is open at a column. -/
def opened (open_ : List Nat) (column : Nat) : List Nat :=
  if opens open_ column then column :: open_ else open_

namespace Line

/-- The tokens of a dash. -/
def dashTokens (open_ : List Nat) (l : Line) : List Token :=
  if l.dash then closing open_ l.start ++
    (opening (closed open_ l.start) l.start .blockSequenceStart ++ [.blockEntry])
  else []

/-- What is open behind a dash. -/
def dashOpened (open_ : List Nat) (l : Line) : List Nat :=
  if l.dash then opened (closed open_ l.start) l.start else open_

/-- The tokens of a key behind what is open. -/
def keyTokens (open_ : List Nat) (l : Line) : List Token :=
  closing open_ l.column ++ (opening (closed open_ l.column) l.column .blockMappingStart ++
    [.key, .scalar true l.key, .value])

def keyOpened (open_ : List Nat) (l : Line) : List Nat := opened (closed open_ l.column) l.column

/-- The tokens of a line. -/
def tokens (open_ : List Nat) (l : Line) : List Token :=
  l.dashTokens open_ ++ (l.keyTokens (l.dashOpened open_) ++ l.value.elim [] (·.tokens))

/-- What is open behind a line. -/
def opened (open_ : List Nat) (l : Line) : List Nat := l.keyOpened (l.dashOpened open_)

end Line

/-- The tokens of lines inside open blocks. -/
def tokensFrom (open_ : List Nat) : List Line → List Token
  | [] => open_.map fun _ => .blockEnd
  | l :: rest => l.tokens open_ ++ tokensFrom (l.opened open_) rest

/-! ## Documents -/

/-- A value of a document. -/
inductive Block where
  | inline (value : Inline)
  | mapping (entries : List (String × Block))
  | items (items : List (List (String × Block)))

namespace Block

/-- The value as it stands behind its key; without items a sequence is an empty list. -/
def inline? : Block → Option Inline
  | .inline v => some v
  | .mapping _ => none
  | .items [] => some (.list [])
  | .items (_ :: _) => none

/-- The line with a dash. -/
def dashed : List Line → List Line
  | [] => []
  | l :: rest => { l with dash := true } :: rest

mutual

/-- The lines behind the key of a value. -/
def lines (column : Nat) : Block → List Line
  | .inline _ => []
  | .mapping es => entryLines column es
  | .items is => itemLines column is

/-- The lines of the entries of a mapping. -/
def entryLines (column : Nat) : List (String × Block) → List Line
  | [] => []
  | (key, b) :: rest =>
    { column, dash := false, key, value := b.inline? } :: (lines (column + 2) b ++ entryLines column rest)

/-- The lines of items. -/
def itemLines (column : Nat) : List (List (String × Block)) → List Line
  | [] => []
  | es :: rest => dashed (entryLines (column + 2) es) ++ itemLines column rest

end

mutual

def tokens : Block → List Token
  | .inline v => v.tokens
  | .mapping es => .blockMappingStart :: (entryTokens es ++ [.blockEnd])
  | .items [] => Inline.tokens (.list [])
  | .items (es :: rest) => .blockSequenceStart :: (itemTokens (es :: rest) ++ [.blockEnd])

def entryTokens : List (String × Block) → List Token
  | [] => []
  | (key, b) :: rest => .key :: .scalar true key :: .value :: (tokens b ++ entryTokens rest)

def itemTokens : List (List (String × Block)) → List Token
  | [] => []
  | es :: rest =>
    .blockEntry :: .blockMappingStart :: (entryTokens es ++ (.blockEnd :: itemTokens rest))

end

mutual

def node : Block → Node
  | .inline v => v.node
  | .mapping es => .mapping (entryNodes es)
  | .items is => .sequence (itemNodes is)

def entryNodes : List (String × Block) → List (Node × Node)
  | [] => []
  | (key, b) :: rest => (.scalar true none key, node b) :: entryNodes rest

def itemNodes : List (List (String × Block)) → List Node
  | [] => []
  | es :: rest => .mapping (entryNodes es) :: itemNodes rest

end

end Block

/-! ## Layout -/

def isKeyChar (c : Char) : Bool := c.isLower || c == '_'

/-- A word in small letters that stands for itself. -/
def IsKey (s : String) : Prop :=
  s.toList ≠ [] ∧ (∀ c ∈ s.toList, isKeyChar c = true) ∧ s.toList.length ≤ 1024 ∧ Core.isText s = true

instance (s : String) : Decidable (IsKey s) :=
  letI : Decidable (∀ c ∈ s.toList, isKeyChar c = true) := List.decidableBAll _ _
  inferInstanceAs (Decidable (_ ∧ _ ∧ _ ∧ _))

theorem isWordChar_of_isKeyChar {c : Char} (h : isKeyChar c = true) : isWordChar c = true := by
  rcases Bool.or_eq_true_iff.1 h with hlower | hunderscore
  · show ((c.isUpper || c.isLower || c.isDigit) || c == '_') = true
    rw [hlower, Bool.or_true, Bool.true_or, Bool.true_or]
  · rw [isWordChar, hunderscore, Bool.or_true]

theorem IsKey.exists_cons {s : String} (h : IsKey s) :
    ∃ c cs, s.toList = c :: cs ∧ ∀ d ∈ c :: cs, isWordChar d = true := by
  obtain ⟨hne, hchars, -⟩ := h
  obtain ⟨c, cs, hcs⟩ := List.exists_cons_of_ne_nil hne
  exact ⟨c, cs, hcs, fun d hd => isWordChar_of_isKeyChar (hchars d (hcs ▸ hd))⟩

/-- The value can be written on one line. -/
def Inline.Written : Inline → Prop
  | .plain s => isPlainForm s.toList = true
  | .quoted s => Quotable s.toList
  | .list ss => ∀ s ∈ ss, Quotable s.toList

/-- The line can be written. -/
structure Line.Written (l : Line) : Prop where
  key : IsKey l.key
  value : ∀ v ∈ l.value, v.Written
  dash : l.dash = true → 2 ≤ l.column

namespace Block

mutual

/-- Each key is a word, each value can be written on its line, and no mapping is empty. -/
def Written : Block → Prop
  | .inline v => v.Written
  | .mapping es => es ≠ [] ∧ EntriesWritten es
  | .items is => ItemsWritten is

def EntriesWritten : List (String × Block) → Prop
  | [] => True
  | (key, b) :: rest => IsKey key ∧ Written b ∧ EntriesWritten rest

def ItemsWritten : List (List (String × Block)) → Prop
  | [] => True
  | es :: rest => es ≠ [] ∧ EntriesWritten es ∧ ItemsWritten rest

end

end Block

/-! ## Tokens of lines -/

variable {column : Nat} {open_ : List Nat} {rest : List Line}

/-- Nothing or a line that begins at most at a column. -/
def StartsBy (column : Nat) (lines : List Line) : Prop := ∀ l ∈ lines.head?, l.start ≤ column

theorem startsBy_nil (column : Nat) : StartsBy column [] := fun _ hl => by cases hl

theorem StartsBy.mono {other : Nat} (h : StartsBy column rest) (hle : column ≤ other) :
    StartsBy other rest :=
  fun l hl => Nat.le_trans (h l hl) hle

theorem closing_cons_of_lt (open_ : List Nat) {n : Nat} (h : column < n) :
    closing (n :: open_) column = .blockEnd :: closing open_ column ∧
      closed (n :: open_) column = closed open_ column := by
  unfold closing closed
  rw [List.takeWhile_cons_of_pos (by simpa using h), List.dropWhile_cons_of_pos (by simpa using h)]
  exact ⟨rfl, rfl⟩

theorem closing_of_le (h : ∀ n ∈ open_.head?, n ≤ column) :
    closing open_ column = [] ∧ closed open_ column = open_ := by
  unfold closing closed
  cases open_ with
  | nil => exact ⟨rfl, rfl⟩
  | cons n open_ =>
    have hn : ¬ column < n := Nat.not_lt.2 (h n rfl)
    rw [List.takeWhile_cons_of_neg (by simpa using hn), List.dropWhile_cons_of_neg (by simpa using hn)]
    exact ⟨rfl, rfl⟩

theorem closing_self (column : Nat) (open_ : List Nat) :
    closing (column :: open_) column = [] ∧ closed (column :: open_) column = column :: open_ :=
  closing_of_le fun _ hn => Nat.le_of_eq (Option.some.inj hn).symm

/-- A block that the next line is not in ends. -/
theorem tokensFrom_close {n : Nat} (h : ∀ l ∈ rest.head?, l.start < n) :
    tokensFrom (n :: open_) rest = .blockEnd :: tokensFrom open_ rest := by
  cases rest with
  | nil => rfl
  | cons l rest =>
    obtain ⟨hclosing, hclosed⟩ := closing_cons_of_lt open_ (h l rfl)
    rw [tokensFrom, tokensFrom]
    cases hdash : l.dash with
    | true =>
      unfold Line.tokens Line.opened Line.dashTokens Line.dashOpened
      simp only [hdash, if_true, hclosing, hclosed, List.cons_append]
    | false =>
      have hstart : l.start = l.column := by simp [Line.start, hdash]
      rw [hstart] at hclosing hclosed
      unfold Line.tokens Line.opened Line.dashTokens Line.dashOpened Line.keyTokens Line.keyOpened
      simp only [hdash, Bool.false_eq_true, if_false, hclosing, hclosed, List.cons_append,
        List.nil_append]

/-- The first entry of a mapping opens it. -/
theorem tokensFrom_mapping {key : String} {value : Option Inline}
    (h : ∀ n ∈ open_.head?, n < column) :
    tokensFrom open_ ({ column, dash := false, key, value } :: rest) =
      .blockMappingStart ::
        tokensFrom (column :: open_) ({ column, dash := false, key, value } :: rest) := by
  obtain ⟨hclosing, hclosed⟩ := closing_of_le fun n hn => Nat.le_of_lt (h n hn)
  obtain ⟨hclosing', hclosed'⟩ := closing_self column open_
  have hopens : opens open_ column = true := by simpa [opens, Option.all_eq_true] using h
  have hopens' : opens (column :: open_) column = false := by simp [opens]
  rw [tokensFrom, tokensFrom]
  unfold Line.tokens Line.opened Line.dashTokens Line.dashOpened Line.keyTokens Line.keyOpened opening
    opened
  simp only [Bool.false_eq_true, if_false, hclosing, hclosed, hclosing', hclosed', hopens, hopens',
    if_true]
  rfl

/-- An entry of an open mapping. -/
theorem tokensFrom_entry {key : String} {value : Option Inline} :
    tokensFrom (column :: open_) ({ column, dash := false, key, value } :: rest) =
      .key :: .scalar true key :: .value ::
        (value.elim [] (·.tokens) ++ tokensFrom (column :: open_) rest) := by
  obtain ⟨hclosing, hclosed⟩ := closing_self column open_
  have hopens : opens (column :: open_) column = false := by simp [opens]
  rw [tokensFrom]
  unfold Line.tokens Line.opened Line.dashTokens Line.dashOpened Line.keyTokens Line.keyOpened opening
    opened
  simp only [Bool.false_eq_true, if_false, hclosing, hclosed, hopens]
  simp

/-- The first line of an item, in a sequence that it may open. -/
theorem tokensFrom_dashed {l : Line} (hl : l.dash = false) (hcolumn : l.column = column + 2)
    (h : ∀ n ∈ open_.head?, n ≤ column) :
    tokensFrom open_ ({ l with dash := true } :: rest) =
      opening open_ column .blockSequenceStart ++ (.blockEntry ::
        tokensFrom (opened open_ column) (l :: rest)) := by
  have hstart : Line.start { l with dash := true } = column := by simp [Line.start, hcolumn]
  obtain ⟨hclosing, hclosed⟩ := closing_of_le h
  have htokens : Line.tokens open_ { l with dash := true } =
      opening open_ column .blockSequenceStart ++ (.blockEntry :: l.tokens (opened open_ column)) := by
    unfold Line.tokens Line.dashTokens Line.dashOpened
    simp only [hstart, hclosing, hclosed, hl, if_true, Bool.false_eq_true, if_false]
    simp [Line.keyTokens]
  have hopened : Line.opened open_ { l with dash := true } = l.opened (opened open_ column) := by
    unfold Line.opened Line.dashOpened
    simp only [hstart, hclosed, hl, if_true, Bool.false_eq_true, if_false]
    rfl
  rw [tokensFrom, tokensFrom, htokens, hopened]
  simp

/-- The first line of an item in an open sequence. -/
theorem tokensFrom_item {l : Line} (hl : l.dash = false) (hcolumn : l.column = column + 2) :
    tokensFrom (column :: open_) ({ l with dash := true } :: rest) =
      .blockEntry :: tokensFrom (column :: open_) (l :: rest) := by
  have hopens : opens (column :: open_) column = false := by simp [opens]
  have hle : ∀ n ∈ (column :: open_).head?, n ≤ column := fun n hn =>
    Nat.le_of_eq (Option.some.inj hn).symm
  rw [tokensFrom_dashed hl hcolumn hle]
  unfold opening opened
  rw [hopens]
  rfl

/-- The first item of a sequence opens it. -/
theorem tokensFrom_sequence {l : Line} (hl : l.dash = false) (hcolumn : l.column = column + 2)
    (h : ∀ n ∈ open_.head?, n < column) :
    tokensFrom open_ ({ l with dash := true } :: rest) =
      .blockSequenceStart :: tokensFrom (column :: open_) ({ l with dash := true } :: rest) := by
  have hopens : opens open_ column = true := by simpa [opens, Option.all_eq_true] using h
  rw [tokensFrom_item hl hcolumn, tokensFrom_dashed hl hcolumn fun n hn => Nat.le_of_lt (h n hn)]
  unfold opening opened
  rw [hopens]
  rfl

namespace Block

/-- The lines of the entries of a mapping begin with that of its first one. -/
theorem entryLines_cons (column : Nat) (key : String) (b : Block) (es : List (String × Block)) :
    entryLines column ((key, b) :: es) =
      { column, dash := false, key, value := b.inline? } ::
        (lines (column + 2) b ++ entryLines column es) := rfl

/-- The lines of items begin with a dash and the first entry of the first item. -/
theorem itemLines_cons (column : Nat) (key : String) (b : Block) (es : List (String × Block))
    (is : List (List (String × Block))) :
    itemLines column (((key, b) :: es) :: is) =
      { Line.mk (column + 2) false key b.inline? with dash := true } ::
        (lines (column + 2 + 2) b ++ entryLines (column + 2) es ++ itemLines column is) := rfl

theorem startsBy_entryLines (es : List (String × Block)) (h : StartsBy column rest) :
    StartsBy column (entryLines column es ++ rest) := by
  match es with
  | [] => exact h
  | (key, b) :: es =>
    intro l hl
    obtain rfl := Option.some.inj hl
    exact Nat.le_refl _

theorem startsBy_itemLines {is : List (List (String × Block))} (hwritten : ItemsWritten is)
    (h : StartsBy column rest) : StartsBy column (itemLines column is ++ rest) := by
  match is with
  | [] => exact h
  | [] :: is => exact absurd rfl hwritten.1
  | ((key, b) :: es) :: is =>
    intro l hl
    obtain rfl := Option.some.inj hl
    exact Nat.le_refl _

mutual

/-- The value and the lines behind a key have the tokens of the value of the key. -/
theorem tokensFrom_block (b : Block) (h : b.Written) (open_ : List Nat) {column : Nat}
    {rest : List Line} (hrest : StartsBy column rest) :
    b.inline?.elim [] (·.tokens) ++ tokensFrom (column :: open_) (b.lines (column + 2) ++ rest) =
      b.tokens ++ tokensFrom (column :: open_) rest := by
  have hopen : ∀ n ∈ (column :: open_).head?, n < column + 2 := by
    intro n hn
    rw [← Option.some.inj hn]
    omega
  have hends : ∀ l ∈ rest.head?, l.start < column + 2 := fun l hl => by
    have := hrest l hl
    omega
  have hmore : StartsBy (column + 2) rest := hrest.mono (by omega)
  match b with
  | .inline v => rfl
  | .mapping [] => exact absurd rfl h.1
  | .mapping ((key, value) :: es) =>
    have hentries := tokensFrom_entries ((key, value) :: es) h.2 (column :: open_) hmore
    show [] ++ tokensFrom (column :: open_) (entryLines (column + 2) ((key, value) :: es) ++ rest) = _
    rw [entryLines_cons, List.cons_append] at hentries ⊢
    rw [List.nil_append, tokensFrom_mapping hopen, hentries, tokensFrom_close hends]
    simp [tokens]
  | .items [] => rfl
  | .items ([] :: is) => exact absurd rfl h.1
  | .items (((key, value) :: es) :: is) =>
    have hitems := tokensFrom_items (((key, value) :: es) :: is) h (column :: open_) hmore
    show [] ++ tokensFrom (column :: open_)
      (itemLines (column + 2) (((key, value) :: es) :: is) ++ rest) = _
    rw [itemLines_cons, List.cons_append] at hitems ⊢
    rw [List.nil_append, tokensFrom_sequence rfl rfl hopen, hitems, tokensFrom_close hends]
    simp [tokens]

/-- The lines of the entries of an open mapping have their tokens. -/
theorem tokensFrom_entries (es : List (String × Block)) (h : EntriesWritten es)
    (open_ : List Nat) {column : Nat} {rest : List Line} (hrest : StartsBy column rest) :
    tokensFrom (column :: open_) (entryLines column es ++ rest) =
      entryTokens es ++ tokensFrom (column :: open_) rest := by
  match es with
  | [] => rfl
  | (key, b) :: es =>
    have hblock := tokensFrom_block b h.2.1 open_ (startsBy_entryLines es hrest)
    rw [entryLines_cons, List.cons_append, tokensFrom_entry, List.append_assoc, hblock,
      tokensFrom_entries es h.2.2 open_ hrest]
    simp [entryTokens]

/-- The lines of the items of an open sequence have their tokens. -/
theorem tokensFrom_items (is : List (List (String × Block))) (h : ItemsWritten is)
    (open_ : List Nat) {column : Nat} {rest : List Line} (hrest : StartsBy column rest) :
    tokensFrom (column :: open_) (itemLines column is ++ rest) =
      itemTokens is ++ tokensFrom (column :: open_) rest := by
  match is with
  | [] => rfl
  | [] :: is => exact absurd rfl h.1
  | ((key, b) :: es) :: is =>
    have hnext : StartsBy column (itemLines column is ++ rest) := startsBy_itemLines h.2.2 hrest
    have hends : ∀ l ∈ (itemLines column is ++ rest).head?, l.start < column + 2 := fun l hl => by
      have := hnext l hl
      omega
    have hopen : ∀ n ∈ (column :: open_).head?, n < column + 2 := by
      intro n hn
      rw [← Option.some.inj hn]
      omega
    have hentries := tokensFrom_entries ((key, b) :: es) h.2.1 (column :: open_)
      (hnext.mono (by omega : column ≤ column + 2))
    rw [entryLines_cons, List.cons_append] at hentries
    rw [itemLines_cons, List.cons_append, List.append_assoc, tokensFrom_item rfl rfl,
      tokensFrom_mapping hopen, hentries, tokensFrom_close hends, tokensFrom_items is h.2.2 open_ hrest]
    simp [itemTokens]

end

/-! ## Order of lines -/

end Block

/-- No line is indented further than a line with a value in front of it. -/
def Ordered : List Line → Prop
  | [] => True
  | l :: rest => (l.value.isSome → StartsBy l.column rest) ∧ Ordered rest

namespace Block

theorem ordered_dashed (lines : List Line) (rest : List Line) (h : Ordered (lines ++ rest)) :
    Ordered (dashed lines ++ rest) := by
  cases lines with
  | nil => exact h
  | cons l lines => exact h

/-- A value on the line of its key has no further lines. -/
theorem lines_of_inline {b : Block} (column : Nat) (h : b.inline?.isSome) : b.lines column = [] := by
  match b with
  | .inline _ => rfl
  | .items [] => rfl

mutual

theorem ordered_block (b : Block) (h : b.Written) {column : Nat} {rest : List Line}
    (hrest : StartsBy column rest) (hordered : Ordered rest) :
    Ordered (b.lines column ++ rest) := by
  match b with
  | .inline v => exact hordered
  | .mapping es => exact ordered_entries es h.2 hrest hordered
  | .items is => exact ordered_items is h hrest hordered

theorem ordered_entries (es : List (String × Block)) (h : EntriesWritten es) {column : Nat}
    {rest : List Line} (hrest : StartsBy column rest) (hordered : Ordered rest) :
    Ordered (entryLines column es ++ rest) := by
  match es with
  | [] => exact hordered
  | (key, b) :: es =>
    have hmore := ordered_entries es h.2.2 hrest hordered
    have hstarts : StartsBy column (entryLines column es ++ rest) := startsBy_entryLines es hrest
    rw [entryLines_cons, List.cons_append, List.append_assoc]
    refine ⟨fun hinline => ?_, ordered_block b h.2.1 (hstarts.mono (by omega)) hmore⟩
    rw [lines_of_inline _ hinline]
    exact hstarts

theorem ordered_items (is : List (List (String × Block))) (h : ItemsWritten is) {column : Nat}
    {rest : List Line} (hrest : StartsBy column rest) (hordered : Ordered rest) :
    Ordered (itemLines column is ++ rest) := by
  match is with
  | [] => exact hordered
  | es :: is =>
    have hmore := ordered_items is h.2.2 hrest hordered
    have hstarts : StartsBy column (itemLines column is ++ rest) := startsBy_itemLines h.2.2 hrest
    have hentries := ordered_entries es h.2.1 (hstarts.mono (by omega : column ≤ column + 2)) hmore
    rw [itemLines, List.append_assoc]
    exact ordered_dashed _ _ hentries

end

/-! ## Lines -/

theorem written_inline {b : Block} (h : b.Written) : ∀ v ∈ b.inline?, v.Written := by
  intro v hv
  match b with
  | .inline w =>
    obtain rfl := Option.some.inj hv
    exact h
  | .items [] =>
    obtain rfl := Option.some.inj hv
    exact fun s hs => absurd hs (List.not_mem_nil)

theorem written_dashed {lines : List Line} (h : ∀ l ∈ lines, l.Written)
    (hcolumn : ∀ l ∈ lines.head?, 2 ≤ l.column) : ∀ l ∈ dashed lines, l.Written := by
  cases lines with
  | nil => exact h
  | cons l lines =>
    obtain ⟨hl, hlines⟩ := List.forall_mem_cons.1 h
    exact List.forall_mem_cons.2 ⟨⟨hl.key, hl.value, fun _ => hcolumn l rfl⟩, hlines⟩

mutual

/-- The lines of a document that can be written can be written. -/
theorem written_lines (b : Block) (h : b.Written) (column : Nat) : ∀ l ∈ b.lines column, l.Written := by
  match b with
  | .inline v => exact fun l hl => absurd hl (List.not_mem_nil)
  | .mapping es => exact written_entryLines es h.2 column
  | .items is => exact written_itemLines is h column

theorem written_entryLines (es : List (String × Block)) (h : EntriesWritten es) (column : Nat) :
    ∀ l ∈ entryLines column es, l.Written := by
  match es with
  | [] => exact fun l hl => absurd hl (List.not_mem_nil)
  | (key, b) :: es =>
    rw [entryLines_cons]
    refine List.forall_mem_cons.2 ⟨⟨h.1, written_inline h.2.1, fun hdash => by cases hdash⟩, ?_⟩
    exact List.forall_mem_append.2 ⟨written_lines b h.2.1 _, written_entryLines es h.2.2 column⟩

theorem written_itemLines (is : List (List (String × Block))) (h : ItemsWritten is) (column : Nat) :
    ∀ l ∈ itemLines column is, l.Written := by
  match is with
  | [] => exact fun l hl => absurd hl (List.not_mem_nil)
  | es :: is =>
    have hfirst : ∀ l ∈ (entryLines (column + 2) es).head?, 2 ≤ l.column := by
      intro l hl
      match es with
      | (key, b) :: es =>
        obtain rfl := Option.some.inj hl
        exact Nat.le_add_left ..
    rw [itemLines]
    exact List.forall_mem_append.2 ⟨written_dashed (written_entryLines es h.2.1 _) hfirst,
      written_itemLines is h.2.2 column⟩

end

end Block

end ApiModel.Yaml
