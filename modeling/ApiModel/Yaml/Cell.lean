/-!
# Characters of a YAML text

A text is read as a list of cells: characters with the line and the column they stand in.  All line
ends but the Unicode separators are written as a line feed, the two-character one as one cell.
-/

namespace ApiModel.Yaml

/-- A character and where it stands. -/
structure Cell where
  char : Char
  line : Nat
  column : Nat
  deriving DecidableEq

/-! ## Classes -/

/-- The character may stand in a text. -/
def isAdmitted (c : Char) : Bool :=
  let n := c.toNat
  n == 0x09 || n == 0x0a || n == 0x0d || (decide (0x20 ≤ n) && decide (n ≤ 0x7e)) || n == 0x85 ||
    (decide (0xa0 ≤ n) && decide (n ≤ 0xfffd)) || decide (0x10000 ≤ n)

/-- The character is a line separator or a paragraph separator. -/
def isSeparator (c : Char) : Bool := c == '\u2028' || c == '\u2029'

/-- The character of a cell ends its line. -/
def isBreak (c : Char) : Bool := c == '\n' || isSeparator c

/-- The character is a space or a tab. -/
def isBlank (c : Char) : Bool := c == ' ' || c == '\t'

/-- The character separates words. -/
def isGap (c : Char) : Bool := isBlank c || isBreak c

/-- The character may stand in the name of an anchor, a directive or a tag handle. -/
def isNameChar (c : Char) : Bool := c.isAlphanum || c == '_' || c == '-'

/-! ## Cells -/

/-- The cells of a text that begins at a line and column. -/
def cellsFrom (line column : Nat) : List Char → List Cell
  | [] => []
  | '\r' :: '\n' :: rest => ⟨'\n', line, column⟩ :: cellsFrom (line + 1) 0 rest
  | c :: rest =>
    if isBreak c then ⟨c, line, column⟩ :: cellsFrom (line + 1) 0 rest
    else if c = '\r' ∨ c = '\u0085' then ⟨'\n', line, column⟩ :: cellsFrom (line + 1) 0 rest
    else ⟨c, line, column⟩ :: cellsFrom line (column + 1) rest

/-- The cells of a text; a byte order mark in front is none of them. -/
def cells (s : String) : List Cell :=
  match s.toList with
  | '\ufeff' :: rest => cellsFrom 0 0 rest
  | cs => cellsFrom 0 0 cs

/-- The characters of cells. -/
def chars (cells : List Cell) : List Char := cells.map (·.char)

/-- The next character. -/
def next? (cells : List Cell) : Option Char := cells.head?.map (·.char)

/-- The next character separates words, or there is none. -/
def beforeGap (cells : List Cell) : Bool := (next? cells).all isGap

/-- Drops the spaces and tabs in front. -/
def dropBlanks (cells : List Cell) : List Cell := cells.dropWhile (isBlank ·.char)

/-- A line begins with three times a character and then a gap. -/
def isMarker (c : Char) : List Cell → Bool
  | x :: y :: z :: rest =>
    x.column == 0 && x.char == c && y.char == c && z.char == c && beforeGap rest
  | _ => false

/-- A line begins with the marker of a document's start or end. -/
def isDocumentMarker (cells : List Cell) : Bool := isMarker '-' cells || isMarker '.' cells

/-- What follows the rest of a line on which only a comment may stand. -/
def lineEnd? (cells : List Cell) : Option (List Cell) :=
  let rest := dropBlanks cells
  let rest := if next? rest = some '#' then rest.dropWhile (!isBreak ·.char) else rest
  match rest with
  | [] => some []
  | c :: rest => if isBreak c.char then some rest else none

end ApiModel.Yaml
