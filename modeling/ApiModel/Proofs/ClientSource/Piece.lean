import ApiModel.Proofs.ClientSource.Literal

/-!
# Pieces of a source text

What comments and string literals a text in the client's language holds.  A comment behind two slashes goes up
to the end of its line, and may hold anything up to there, an isolated carriage return too.  What a client
skeleton has no use for is refused: comments between lines, character literals and string literals with a prefix.

Parts are what a text is written from: code, comments and literals.

Principal result: `pieces?_written_iff` — **a text is read as the parts that it was written from if and only if**
no literal holds what is read as something else, and no comment holds a line feed.
-/

namespace ApiModel.Source

/-! ## Pieces -/

inductive Piece where
  | code (c : Char)
  /-- A comment behind its two slashes, up to the end of the line. -/
  | comment (text : List Char)
  /-- A string literal, by the text that it stands for. -/
  | literal (text : List Char)
  deriving DecidableEq

/-- The character may stand in a word. -/
def isWordChar (c : Char) : Bool := c.isAlphanum || c == '_' || decide (0x80 ≤ c.toNat)

/-- Behind a quotation mark a lifetime begins, and no character literal. -/
def isLifetime : List Char → Bool
  | c :: d :: _ => isWordChar c && d != '\''
  | _ => false

/-- A literal directly behind the character has a prefix. -/
def isPrefixChar (c : Char) : Bool := isWordChar c || c == '#'

/-- The pieces of a text. -/
def pieces? : List Char → Option (List Piece)
  | [] => some []
  | c :: rest =>
    if c = '/' ∧ rest.head? = some '/' then
      (pieces? (rest.tail.dropWhile (· != '\n'))).map (.comment (rest.tail.takeWhile (· != '\n')) :: ·)
    else if c = '"' then
      match _h : literal? rest with
      | some (text, more) => (pieces? more).map (.literal text :: ·)
      | none => none
    else if c = '/' ∧ rest.head? = some '*' then none
    else if c = '\'' ∧ isLifetime rest = false then none
    else if isPrefixChar c = true ∧ rest.head? = some '"' then none
    else (pieces? rest).map (.code c :: ·)
termination_by cs => cs.length
decreasing_by
  · have h := (List.dropWhile_suffix (l := rest.tail) (· != '\n')).length_le
    simp only [List.length_tail, List.length_cons] at h ⊢
    omega
  · exact Nat.lt_succ_of_lt (length_literal?_lt _h)
  · simp

/-! ## Code -/

/-- The text opens no comment and no literal, and a literal may follow it. -/
def isCode : List Char → Bool
  | [] => true
  | c :: rest => c != '/' && c != '"' && (c != '\'' || isLifetime rest) &&
      (!isPrefixChar c || !rest.isEmpty) && isCode rest

/-- The text holds no slash and no quote; as a part of code it opens nothing. -/
def IsBare (s : List Char) : Prop := ∀ c ∈ s, c ≠ '/' ∧ c ≠ '"' ∧ c ≠ '\''

instance (s : List Char) : Decidable (IsBare s) :=
  List.decidableBAll _ s

variable {s t rest : List Char} {c : Char}

theorem isLifetime_append (h : isLifetime s = true) : isLifetime (s ++ t) = true := by
  unfold isLifetime at h
  split at h
  · exact h
  · cases h

theorem isCode_append (hs : isCode s = true) (ht : isCode t = true) : isCode (s ++ t) = true := by
  induction s with
  | nil => exact ht
  | cons c s ih =>
    simp only [isCode, List.cons_append, Bool.and_eq_true, Bool.or_eq_true] at hs ⊢
    refine ⟨⟨⟨hs.1.1.1, hs.1.1.2.imp_right isLifetime_append⟩, ?_⟩, ih hs.2⟩
    refine hs.1.2.imp_right fun h => ?_
    simp_all

theorem isCode_bare_append (hs : IsBare s) (ht : isCode t = true) (hne : t ≠ []) : isCode (s ++ t) = true := by
  induction s with
  | nil => exact ht
  | cons c s ih =>
    obtain ⟨⟨hslash, hquote, hmark⟩, hs⟩ := List.forall_mem_cons.1 hs
    simp [isCode, hslash, hquote, hmark, ih hs, hne]

theorem pieces?_code (h : isCode s = true) :
    pieces? (s ++ rest) = (pieces? rest).map (s.map .code ++ ·) := by
  induction s with
  | nil => simp
  | cons c s ih =>
    simp only [isCode, Bool.and_eq_true, Bool.or_eq_true, bne_iff_ne, ne_eq, Bool.not_eq_true',
      List.isEmpty_eq_false_iff] at h
    obtain ⟨⟨⟨⟨hslash, hquote⟩, hmark⟩, hend⟩, hs⟩ := h
    have hlifetime : ¬(c = '\'' ∧ isLifetime (s ++ rest) = false) := by
      rintro ⟨rfl, hnone⟩
      rcases hmark with hmark | hmark
      · exact hmark rfl
      · rw [isLifetime_append hmark] at hnone
        cases hnone
    have hprefix : ¬(isPrefixChar c = true ∧ (s ++ rest).head? = some '"') := by
      rintro ⟨hchar, hhead⟩
      rcases hend with hend | hend
      · rw [hchar] at hend
        cases hend
      · obtain ⟨d, s, rfl⟩ := List.exists_cons_of_ne_nil hend
        obtain rfl : d = '"' := Option.some.inj hhead
        simp [isCode] at hs
    rw [List.cons_append, pieces?, if_neg (by simp [hslash]), if_neg hquote, if_neg (by simp [hslash]),
      if_neg hlifetime, if_neg hprefix, ih hs, Option.map_map]
    rfl

/-! ## Parts -/

/-- What a text is written from. -/
inductive Part where
  | code (text : String)
  /-- A line of comment behind its two slashes. -/
  | comment (text : String)
  | literal (text : String)
  deriving DecidableEq

namespace Part

/-- How a part is written. -/
def written : Part → String
  | code text => text
  | comment text => "//" ++ text ++ "\n"
  | literal text => "\"" ++ text ++ "\""

/-- What a part is meant to be read as. -/
def pieces : Part → List Piece
  | code text => text.toList.map .code
  | comment text => [.comment text.toList, .code '\n']
  | literal text => [.literal text.toList]

/-- The text of a part ends where the part does. -/
def Sound : Part → Prop
  | code _ => True
  | comment text => '\n' ∉ text.toList
  | literal text => IsLiteralText text.toList

@[simp]
theorem sound_code (text : String) : (code text).Sound := trivial

theorem sound_comment_iff {text : String} : (comment text).Sound ↔ '\n' ∉ text.toList := Iff.rfl

theorem sound_literal_iff {text : String} : (literal text).Sound ↔ IsLiteralText text.toList := Iff.rfl

/-- The code of a part is code. -/
def Opens : Part → Prop
  | code text => isCode text.toList = true
  | _ => True

instance : (p : Part) → Decidable p.Opens
  | code text => inferInstanceAs (Decidable (isCode text.toList = true))
  | comment _ => .isTrue trivial
  | literal _ => .isTrue trivial

theorem opens_code_iff {text : String} : (code text).Opens ↔ isCode text.toList = true := Iff.rfl

@[simp]
theorem opens_comment (text : String) : (comment text).Opens := trivial

@[simp]
theorem opens_literal (text : String) : (literal text).Opens := trivial

end Part

variable {ps : List Piece} {parts : List Part}

theorem bne_of_notMem {feed : Char} (h : feed ∉ s) : ∀ c ∈ s, (c != feed) = true := by
  rintro c hc
  refine bne_iff_ne.2 ?_
  rintro rfl
  exact h hc

theorem takeWhile_eq_iff {feed : Char} {s : List Char} :
    (s ++ feed :: rest).takeWhile (· != feed) = s ↔ feed ∉ s := by
  constructor
  · intro h hmem
    rw [← h] at hmem
    simpa using List.all_eq_true.1 List.all_takeWhile feed hmem
  · intro h
    rw [List.takeWhile_append_of_pos (bne_of_notMem h)]
    simp

theorem pieces?_comment_iff {text : String} :
    pieces? ((Part.comment text).written.toList ++ rest) = some ((Part.comment text).pieces ++ ps) ↔
      (Part.comment text).Sound ∧ pieces? rest = some ps := by
  have hrest : (Part.comment text).written.toList ++ rest = '/' :: '/' :: (text.toList ++ '\n' :: rest) := by
    simp [Part.written]
  have hfeed : pieces? ('\n' :: rest) = (pieces? rest).map (.code '\n' :: ·) :=
    pieces?_code (s := ['\n']) (by decide)
  rw [hrest, pieces?, if_pos ⟨rfl, rfl⟩, List.tail_cons]
  constructor
  · intro h
    obtain ⟨behind, hbehind, heq⟩ := Option.map_eq_some_iff.1 h
    obtain ⟨htext, rfl⟩ := List.cons.inj heq
    have hsound := takeWhile_eq_iff.1 (Piece.comment.inj htext)
    rw [List.dropWhile_append_of_pos (bne_of_notMem hsound), List.dropWhile_cons_of_neg (by simp),
      hfeed] at hbehind
    obtain ⟨more, hmore, hcons⟩ := Option.map_eq_some_iff.1 hbehind
    obtain ⟨-, rfl⟩ := List.cons.inj hcons
    exact ⟨hsound, hmore⟩
  · rintro ⟨hsound, hmore⟩
    rw [takeWhile_eq_iff.2 hsound,
      List.dropWhile_append_of_pos (bne_of_notMem hsound),
      List.dropWhile_cons_of_neg (by simp), hfeed, hmore]
    rfl

theorem pieces?_literal_iff {text : String} :
    pieces? ((Part.literal text).written.toList ++ rest) = some ((Part.literal text).pieces ++ ps) ↔
      (Part.literal text).Sound ∧ pieces? rest = some ps := by
  have hrest : (Part.literal text).written.toList ++ rest = '"' :: (text.toList ++ '"' :: rest) := by
    simp [Part.written]
  rw [hrest, pieces?, if_neg (by simp), if_pos rfl]
  constructor
  · intro h
    split at h
    · rename_i read follows hread
      obtain ⟨more, hmore, heq⟩ := Option.map_eq_some_iff.1 h
      obtain ⟨htext, rfl⟩ := List.cons.inj heq
      obtain rfl := Piece.literal.inj htext
      have hsound := literal?_eq_some_iff.1 ⟨follows, hread⟩
      rw [literal?_of_isLiteralText hsound] at hread
      obtain ⟨-, rfl⟩ := Prod.mk.inj (Option.some.inj hread)
      exact ⟨hsound, hmore⟩
    · cases h
  · rintro ⟨hsound, hmore⟩
    rw [literal?_of_isLiteralText hsound]
    simp only [hmore]
    rfl

theorem pieces?_code_iff {text : String} (h : (Part.code text).Opens) :
    pieces? ((Part.code text).written.toList ++ rest) = some ((Part.code text).pieces ++ ps) ↔
      (Part.code text).Sound ∧ pieces? rest = some ps := by
  rw [Part.written, pieces?_code h]
  constructor
  · intro hread
    obtain ⟨more, hmore, heq⟩ := Option.map_eq_some_iff.1 hread
    obtain rfl := List.append_cancel_left heq
    exact ⟨trivial, hmore⟩
  · rintro ⟨-, hmore⟩
    rw [hmore]
    rfl

/-- What was written ahead of a text is read as its parts if and only if each of them ends where it is meant to. -/
theorem pieces?_written_append_iff (hcode : ∀ p ∈ parts, p.Opens) :
    pieces? ((String.join (parts.map (·.written))).toList ++ rest) = some (parts.flatMap (·.pieces) ++ ps) ↔
      (∀ p ∈ parts, p.Sound) ∧ pieces? rest = some ps := by
  induction parts with
  | nil => simp
  | cons p parts ih =>
    obtain ⟨hp, hparts⟩ := List.forall_mem_cons.1 hcode
    rw [List.map_cons, String.join_cons, String.toList_append, List.append_assoc, List.flatMap_cons,
      List.append_assoc, List.forall_mem_cons, and_assoc, ← ih hparts]
    cases p with
    | code text => exact pieces?_code_iff hp
    | comment text => exact pieces?_comment_iff
    | literal text => exact pieces?_literal_iff

/-- **A text is read as the parts that it was written from if and only if** each of them ends where it is meant
to. -/
theorem pieces?_written_iff (hcode : ∀ p ∈ parts, p.Opens) :
    pieces? (String.join (parts.map (·.written))).toList = some (parts.flatMap (·.pieces)) ↔
      ∀ p ∈ parts, p.Sound := by
  have hempty : pieces? [] = some [] := by rw [pieces?]
  have h : pieces? (_ ++ []) = some (_ ++ []) ↔ _ := pieces?_written_append_iff hcode
  rwa [List.append_nil, List.append_nil, and_iff_left hempty] at h

end ApiModel.Source
