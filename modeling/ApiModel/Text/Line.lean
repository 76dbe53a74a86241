/-!
# Lines of a text

A line ends at a line feed; a carriage return right before the line feed belongs to the line end,
any other carriage return is text.  A text that ends in a line feed has no further, empty line.
-/

namespace ApiModel.Text

/-- A finished line without the carriage return of its line end. -/
def chomp (line : List Char) : List Char :=
  if line.getLast? = some '\r' then line.dropLast else line

/-- The lines of a text, without their line ends; `cur` holds the line being read, reversed. -/
def linesFrom (cur : List Char) : List Char → List (List Char)
  | [] => if cur.isEmpty then [] else [cur.reverse]
  | c :: rest =>
    if c = '\n' then chomp cur.reverse :: linesFrom [] rest
    else linesFrom (c :: cur) rest

/-- The lines of a text, without their line ends. -/
def lines (s : List Char) : List (List Char) := linesFrom [] s

theorem mem_linesFrom_no_feed {s cur line : List Char} (hcur : '\n' ∉ cur)
    (h : line ∈ linesFrom cur s) : '\n' ∉ line := by
  induction s generalizing cur with
  | nil =>
    simp only [linesFrom] at h
    split at h
    · simp at h
    · simp only [List.mem_singleton] at h
      subst h
      simpa using hcur
  | cons c rest ih =>
    simp only [linesFrom] at h
    split at h
    · rcases List.mem_cons.1 h with rfl | h
      · intro hm
        simp only [chomp] at hm
        split at hm
        · exact hcur (by simpa using List.dropLast_subset _ hm)
        · exact hcur (by simpa using hm)
      · exact ih (by simp) h
    · next hc => exact ih (by simp [hcur, Ne.symm hc]) h

/-- No line holds a line feed. -/
theorem mem_lines_no_feed {s line : List Char} (h : line ∈ lines s) : '\n' ∉ line :=
  mem_linesFrom_no_feed (by simp) h

end ApiModel.Text
