import ApiModel.Proofs.ClientSource.Skeleton
import Mathlib.Data.List.Forall2

/-!
# Documentation in comments

Documentation is written as lines of comment, one for each of its lines, ahead of an item.  All but the first
stand behind the item's indent, and so does the item.

Reading takes indent and marker away again and refuses a line that has them not, so what is read is all that is
written.

Principal results:

* `pieces_comments` — the lines of a comment are those of the documentation, one for one;
* `documented?_comments` — reading them gives the lines of documentation back, in order;
* `pieces?_comment` — in a source text a comment is no code but blanks;
* `comment_spec` — **documentation is written as comment lines and nothing else**.
-/

namespace ApiModel

namespace ClientSource

open ApiModel.Text

variable {line : List Char} {docLines texts : List (List Char)} {indent : Nat}

/-! ## Lines of comment -/

/-- The comment of a line of documentation: the marker, and behind a space what the line holds up to the blanks at
its end. -/
inductive IsCommentOf (line : List Char) : List Char → Prop
  | blank (h : isBlankText line = true) : IsCommentOf line "///".toList
  | text (h : isBlankText line = false) : IsCommentOf line ("/// ".toList ++ trimEnd line)

/-- Lines of which all but the first stand behind an indent. -/
def indented (indent : Nat) : List (List Char) → List (List Char)
  | [] => []
  | first :: rest => first :: rest.map (List.replicate indent ' ' ++ ·)

/-- The documentation that a line of comment holds. -/
def documentedLine? (line : List Char) : Option (List Char) :=
  (behind? "///".toList line).bind fun rest => if rest.isEmpty then some [] else behind? [' '] rest

/-- The lines of documentation that lines of comment hold, all but the first of them behind an indent. -/
def documented? (indent : Nat) : List (List Char) → Option (List (List Char))
  | [] => some []
  | first :: rest => ((first :: ·) <$> rest.mapM (behind? (List.replicate indent ' '))).bind
      (·.mapM documentedLine?)

theorem isCommentOf_commentLine (line : List Char) : IsCommentOf line (commentLine line) := by
  unfold commentLine
  split
  · rename_i h
    exact .blank h
  · rename_i h
    exact .text (by simpa using h)

theorem trimEnd_of_isBlankText (h : isBlankText line = true) : trimEnd line = [] := by
  unfold trimEnd
  rw [List.reverse_eq_nil_iff, List.dropWhile_eq_nil_iff]
  exact fun c hc => List.all_eq_true.1 h c (List.mem_reverse.1 hc)

theorem behind?_append (front s : List Char) : behind? front (front ++ s) = some s := by
  rw [behind?, if_pos (List.isPrefixOf_iff_prefix.2 (List.prefix_append front s)), List.drop_left]

/-- The comment of a line holds the line, up to the blanks at its end. -/
theorem documentedLine?_commentLine (line : List Char) :
    documentedLine? (commentLine line) = some (trimEnd line) := by
  unfold documentedLine? commentLine
  split
  · rename_i h
    rw [trimEnd_of_isBlankText h]
    rfl
  · have hmarker : "/// ".toList ++ trimEnd line = "///".toList ++ ([' '] ++ trimEnd line) := rfl
    rw [hmarker, behind?_append, Option.bind_some, behind?_append]
    rfl

/-- What undoes a function on every argument undoes it on a list. -/
theorem mapM_map_eq_some {α β γ : Type} {read : β → Option γ} {write : α → β} {kept : α → γ}
    (h : ∀ a, read (write a) = some (kept a)) (as : List α) :
    (as.map write).mapM read = some (as.map kept) := by
  have hread : read ∘ write = fun a => some (kept a) := funext h
  rw [List.mapM_map, hread]
  exact List.mapM_pure

/-- Reading the lines of a comment gives the lines of documentation back. -/
theorem documented?_comments (indent : Nat) (docLines : List (List Char)) :
    documented? indent (indented indent (docLines.map commentLine)) = some (docLines.map trimEnd) := by
  cases docLines with
  | nil => rfl
  | cons line rest =>
    have hindent : ((rest.map commentLine).map (List.replicate indent ' ' ++ ·)).mapM
        (behind? (List.replicate indent ' ')) = some ((rest.map commentLine).map id) :=
      mapM_map_eq_some (behind?_append _) _
    rw [List.map_id] at hindent
    rw [List.map_cons, indented, documented?, hindent]
    exact mapM_map_eq_some documentedLine?_commentLine (line :: rest)

/-! ## The text of a comment -/

theorem intercalate_append_cons (sep front line : List Char) (rest : List (List Char)) :
    List.intercalate sep ((front ++ line) :: rest) = front ++ List.intercalate sep (line :: rest) := by
  cases rest with
  | nil => simp
  | cons next rest => simp [List.intercalate_cons_cons]

/-- An indent behind every line feed is an indent ahead of every line but the first. -/
theorem intercalate_feed (indent : Nat) (lines : List (List Char)) :
    List.intercalate ('\n' :: List.replicate indent ' ') lines =
      List.intercalate ['\n'] (indented indent lines) := by
  cases lines with
  | nil => rfl
  | cons first rest =>
    induction rest generalizing first with
    | nil => simp [indented]
    | cons next rest ih =>
      rw [List.intercalate_cons_cons, ih next, indented, indented, List.map_cons, List.intercalate_cons_cons,
        intercalate_append_cons, List.append_assoc, List.append_assoc]
      rfl

theorem feed_notMem_commentLine (h : '\n' ∉ line) : '\n' ∉ commentLine line := by
  unfold commentLine
  split
  · decide
  · rw [List.mem_append, not_or]
    exact ⟨by decide, fun hfeed => h (mem_of_mem_trimEnd hfeed)⟩

theorem feed_notMem_indented (h : ∀ line ∈ texts, '\n' ∉ line) :
    ∀ line ∈ indented indent texts, '\n' ∉ line := by
  cases texts with
  | nil => exact h
  | cons first rest =>
    obtain ⟨hfirst, hrest⟩ := List.forall_mem_cons.1 h
    refine List.forall_mem_cons.2 ⟨hfirst, List.forall_mem_map.2 fun line hline => ?_⟩
    rw [List.mem_append, not_or]
    exact ⟨by simp, hrest line hline⟩

/-- The lines of a comment, cut at its line feeds. -/
theorem pieces_comments (indent : Nat) (hne : docLines ≠ []) (h : ∀ line ∈ docLines, '\n' ∉ line) :
    pieces (· == '\n') (List.intercalate ('\n' :: List.replicate indent ' ') (docLines.map commentLine)) =
      indented indent (docLines.map commentLine) := by
  rw [intercalate_feed]
  refine pieces_intercalate ?_ (feed_notMem_indented (List.forall_mem_map.2 fun line hline =>
    feed_notMem_commentLine (h line hline)))
  obtain ⟨line, rest, rfl⟩ := List.exists_cons_of_ne_nil hne
  exact List.cons_ne_nil _ _

/-! ## Comments in a source text -/

/-- The piece of a source text is a comment, or it stands between comments. -/
def InComment : Source.Piece → Prop
  | .comment _ => True
  | .code c => c = '\n' ∨ c = ' '
  | .literal _ => False

/-- In a source text a comment is read as comments with blanks between them. -/
theorem pieces?_comment (indent : Nat) (documentation : String) :
    ∃ comments, (∀ p ∈ comments, InComment p) ∧
      ∀ rest ps, Source.pieces? rest = some ps →
        Source.pieces? ((comment indent documentation).toList ++ rest) = some (comments ++ ps) := by
  refine ⟨(docParts indent documentation).flatMap (·.pieces), ?_, fun rest ps hrest => ?_⟩
  · refine List.forall_mem_flatMap.2 fun part hpart => ?_
    unfold docParts at hpart
    split at hpart
    · cases hpart
    · obtain ⟨line, -, hpart⟩ := List.mem_flatMap.1 hpart
      rcases List.mem_cons.1 hpart with rfl | hpart
      · exact List.forall_mem_cons.2 ⟨trivial, List.forall_mem_singleton.2 (.inl rfl)⟩
      · obtain rfl := List.mem_singleton.1 hpart
        refine List.forall_mem_map.2 fun c hc => .inr ?_
        rw [String.toList_ofList] at hc
        exact List.eq_of_mem_replicate hc
  · rw [← written_docParts]
    exact (Source.pieces?_written_append_iff (opens_docParts indent documentation)).2
      ⟨sound_docParts indent documentation, hrest⟩

/-- **Documentation is written as comment lines and nothing else.**  Documentation of blanks is not written; else
there is one line of comment for each line, all but the first behind the indent, and behind them the next line
is begun.  Reading the comment gives the lines back up to the blanks at their ends, and in a source text the
comment is no code. -/
theorem comment_spec (indent : Nat) (documentation : String) :
    (isBlankText documentation.toList = true → comment indent documentation = "") ∧
      (isBlankText documentation.toList = false → ∃ body texts,
        (comment indent documentation).toList = body ++ '\n' :: List.replicate indent ' ' ∧
        pieces (· == '\n') body = indented indent texts ∧
        List.Forall₂ IsCommentOf (lines (trimEnd documentation.toList)) texts ∧
        documented? indent (pieces (· == '\n') body) =
          some ((lines (trimEnd documentation.toList)).map trimEnd)) ∧
      ∃ comments, (∀ p ∈ comments, InComment p) ∧
        ∀ rest ps, Source.pieces? rest = some ps →
          Source.pieces? ((comment indent documentation).toList ++ rest) = some (comments ++ ps) := by
  refine ⟨fun hblank => ?_, fun hblank => ?_, pieces?_comment indent documentation⟩
  · unfold comment
    simp only [hblank, if_true]
  · have hlines := pieces_comments indent (lines_ne_nil (trimEnd_ne_nil hblank)) fun _ => mem_lines_no_feed
    refine ⟨_, (lines (trimEnd documentation.toList)).map commentLine, ?_, hlines, ?_, ?_⟩
    · unfold comment
      simp only [hblank, Bool.false_eq_true, if_false]
      exact String.toList_ofList
    · exact List.forall₂_map_right_iff.2 (List.forall₂_same.2 fun line _ => isCommentOf_commentLine line)
    · rw [hlines]
      exact documented?_comments indent _

/-- A blank line and a line ending in blanks, both between other lines, behind an indent of four. -/
theorem comment_spec_indented :
    (comment 4 " \n").toList = [] ∧
      ∃ body, (comment 4 "\n Lists.\r\n \t\nx  \n y \n").toList = body ++ "\n    ".toList ∧
        documented? 4 (pieces (· == '\n') body) = some [[], " Lists.".toList, [], "x".toList, " y".toList] := by
  have hblank := (comment_spec 4 " \n").1 (by decide)
  obtain ⟨body, texts, hbody, -, -, hread⟩ := (comment_spec 4 "\n Lists.\r\n \t\nx  \n y \n").2.1 (by decide)
  refine ⟨congrArg String.toList hblank, body, hbody, hread.trans ?_⟩
  decide +kernel

end ClientSource

end ApiModel
