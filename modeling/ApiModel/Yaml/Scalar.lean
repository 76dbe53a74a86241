import ApiModel.Text.Digit
import ApiModel.Yaml.Cell

/-!
# Scalars of a YAML text

The text of a scalar in each of its styles: plain, quoted, and as a block that is kept line by line or
folded.  Between words a line end is a space, and of several line ends the first is dropped.

`plain?`, `quoted?` and `block?` begin behind what announces the style, and return the text with the
cells behind it.  `none` is a text that is malformed.
-/

namespace ApiModel.Yaml

/-- The text of a gap between words: blanks stay on one line and vanish around line ends. -/
def foldGap (gap : List Char) : List Char :=
  match gap.filter isBreak with
  | [] => gap
  | ['\n'] => [' ']
  | '\n' :: more => more
  | breaks => breaks

/-! ## Plain scalars -/

/-- The characters that delimit flow collections. -/
def isFlowMark (c : Char) : Bool :=
  c == ',' || c == '[' || c == ']' || c == '\x7b' || c == '\x7d'

/-- One word of a plain scalar. -/
def plainWord (inFlow : Bool) : List Cell → Option (List Char × List Cell)
  | [] => some ([], [])
  | c :: rest =>
    if isGap c.char then some ([], c :: rest)
    else if inFlow && c.char == ':' && (next? rest).any (fun d => isFlowMark d || d == '?') then none
    else if (c.char == ':' && beforeGap rest) || (inFlow && isFlowMark c.char) then
      some ([], c :: rest)
    else (plainWord inFlow rest).map fun (word, rest) => (c.char :: word, rest)

/-- A plain scalar that was read. -/
structure PlainScalar where
  text : List Char
  /-- A line end follows the text. -/
  endsLine : Bool
  rest : List Cell

/-- A tab stands where a continued line has to be indented. -/
def hasBadTab (indent : Int) (gap : List Cell) : Bool :=
  gap.any fun c =>
    c.char == '\t' && decide ((c.column : Int) < indent) && gap.head?.any (·.line != c.line)

/-- Reads on behind some text and a gap; each round reads a word. -/
def plainFrom (inFlow : Bool) (indent : Int) :
    (rounds : Nat) → (text gap : List Char) → List Cell → Option PlainScalar
  | 0, _, _, _ => none
  | rounds + 1, text, gap, cells =>
    if isDocumentMarker cells || next? cells = some '#' then
      some ⟨text, gap.any isBreak, cells⟩
    else do
      let (word, rest) ← plainWord inFlow cells
      if word.isEmpty then return ⟨text, gap.any isBreak, rest⟩
      let text := text ++ foldGap gap ++ word
      let gap := rest.takeWhile (isGap ·.char)
      let rest := rest.dropWhile (isGap ·.char)
      if gap.isEmpty then return ⟨text, false, rest⟩
      guard (!hasBadTab indent gap)
      if !inFlow && rest.head?.any (fun c => decide ((c.column : Int) < indent)) then
        return ⟨text, (chars gap).any isBreak, rest⟩
      plainFrom inFlow indent rounds text (chars gap) rest

/-- Reads a plain scalar whose further lines have to be indented. -/
def plain? (inFlow : Bool) (indent : Int) (cells : List Cell) : Option PlainScalar :=
  plainFrom inFlow indent (cells.length + 1) [] [] cells

/-! ## Quoted scalars -/

/-- The character that a backslash and one character stand for. -/
def escaped? : Char → Option Char
  | '0' => some '\x00'
  | 'a' => some '\x07'
  | 'b' => some '\x08'
  | 't' => some '\t'
  | '\t' => some '\t'
  | 'n' => some '\n'
  | 'v' => some '\x0b'
  | 'f' => some '\x0c'
  | 'r' => some '\r'
  | 'e' => some '\x1b'
  | ' ' => some ' '
  | '"' => some '"'
  | '/' => some '/'
  | '\\' => some '\\'
  | 'N' => some '\u0085'
  | '_' => some '\u00a0'
  | 'L' => some '\u2028'
  | 'P' => some '\u2029'
  | _ => none

/-- How many hexadecimal digits follow a backslash and a letter. -/
def codeLength? : Char → Option Nat
  | 'x' => some 2
  | 'u' => some 4
  | 'U' => some 8
  | _ => none

/-- A word of a quoted scalar. -/
structure QuotedWord where
  text : List Char
  /-- The word ends in a line end behind a backslash, which is dropped. -/
  continued : Bool
  rest : List Cell

def QuotedWord.push (c : Char) (w : QuotedWord) : QuotedWord := { w with text := c :: w.text }

/-- One word of a scalar in single quotes, where a quote is written twice. -/
def singleWord : List Cell → QuotedWord
  | [] => ⟨[], false, []⟩
  | c :: rest =>
    if isGap c.char then ⟨[], false, c :: rest⟩
    else if c.char = '\'' then
      match rest with
      | [] => ⟨[], false, c :: rest⟩
      | d :: rest' => if d.char = '\'' then (singleWord rest').push '\'' else ⟨[], false, c :: rest⟩
    else (singleWord rest).push c.char

/-- One word of a scalar in double quotes, where a backslash escapes. -/
def doubleWord : List Cell → Option QuotedWord
  | [] => some ⟨[], false, []⟩
  | c :: rest =>
    if isGap c.char || c.char == '"' then some ⟨[], false, c :: rest⟩
    else if c.char = '\\' then
      match rest with
      | [] => none
      | d :: rest' =>
        if isBreak d.char then some ⟨[], true, rest'⟩
        else
          match escaped? d.char, codeLength? d.char with
          | some x, _ => (doubleWord rest').map (·.push x)
          | none, some n =>
            match Text.coded? n (chars (rest'.take n)) with
            | some x => (doubleWord (rest'.drop n)).map (·.push x)
            | none => none
          | none, none => none
    else (doubleWord rest).map (·.push c.char)
termination_by cells => cells.length
decreasing_by
  all_goals simp
  all_goals omega

/-- Reads on behind some text; each round reads a word and the gap behind it. -/
def quotedFrom (quote : Char) : (rounds : Nat) → (text : List Char) → List Cell →
    Option (List Char × List Cell)
  | 0, _, _ => none
  | rounds + 1, text, cells => do
    guard (!isDocumentMarker cells && !cells.isEmpty)
    let word ← if quote = '"' then doubleWord cells else some (singleWord cells)
    let text := text ++ word.text
    if next? word.rest = some quote then return (text, word.rest.drop 1)
    let gap := chars (word.rest.takeWhile (isGap ·.char))
    let text := text ++ if word.continued then gap.filter isBreak else foldGap gap
    quotedFrom quote rounds text (word.rest.dropWhile (isGap ·.char))

/-- Reads a quoted scalar up to the closing quote. -/
def quoted? (quote : Char) (cells : List Cell) : Option (List Char × List Cell) :=
  quotedFrom quote (cells.length + 1) [] cells

/-! ## Block scalars -/

/-- What happens to the line ends behind the last line of a block. -/
inductive Chomping where
  | strip | clip | keep
  deriving DecidableEq

def chomping? : Char → Option Chomping
  | '-' => some .strip
  | '+' => some .keep
  | _ => none

/-- The indentation that a block's header gives. -/
def indentation? (c : Char) : Option Nat :=
  if c.isDigit ∧ c ≠ '0' then some (c.toNat - 48) else none

/-- The header of a block: how it ends and how far it is indented, in either order. -/
def blockHeader (cells : List Cell) : Chomping × Option Nat × List Cell :=
  let indentation (cells : List Cell) : Option Nat × List Cell :=
    match (next? cells).bind indentation? with
    | some n => (some n, cells.drop 1)
    | none => (none, cells)
  match (next? cells).bind chomping? with
  | some chomping => (chomping, indentation (cells.drop 1))
  | none =>
    match indentation cells with
    | (some n, rest) =>
      match (next? rest).bind chomping? with
      | some chomping => (chomping, some n, rest.drop 1)
      | none => (.clip, some n, rest)
    | (none, rest) => (.clip, none, rest)

/-- Empty lines of a block: their line ends, the widest indentation and what follows.  While the
indentation of the block is not known, any number of spaces may be in front. -/
def emptyLines (indent : Option Nat) (widest : Nat) :
    List Cell → Option (List Char × Nat × List Cell)
  | [] => some ([], widest, [])
  | c :: rest =>
    let inside := indent.any fun n => decide (n ≤ c.column)
    if !inside && c.char == ' ' then emptyLines indent (max widest (c.column + 1)) rest
    else if !inside && c.char == '\t' then none
    else if isBreak c.char then
      (emptyLines indent (max widest c.column) rest).map fun (breaks, more) => (c.char :: breaks, more)
    else some ([], max widest c.column, c :: rest)

/-- A block as far as it is read. -/
structure BlockScalar where
  text : List Char := []
  /-- The line end behind the text. -/
  feed : List Char := []
  /-- The line ends of the empty lines behind it. -/
  breaks : List Char := []
  /-- The last line begins with a blank. -/
  indented : Bool := false

/-- The block with one more line; folding joins lines that do not begin with a blank. -/
def BlockScalar.addLine (folded : Bool) (b : BlockScalar) (line feed breaks : List Char) :
    BlockScalar :=
  let indented := line.head?.any isBlank
  let joined := folded && b.feed == ['\n'] && !b.indented && !indented
  let between := if joined then (if b.breaks.isEmpty then [' '] else []) else b.feed
  { text := b.text ++ between ++ b.breaks ++ line, feed, breaks, indented }

/-- Reads lines with an indentation; each round reads one. -/
def blockLines (folded : Bool) (indent : Nat) :
    (rounds : Nat) → BlockScalar → List Cell → Option (BlockScalar × List Cell)
  | 0, _, _ => none
  | rounds + 1, b, cells =>
    if cells.head?.any (·.column == indent) then do
      let line := chars (cells.takeWhile (!isBreak ·.char))
      let rest := cells.dropWhile (!isBreak ·.char)
      let (breaks, _, after) ← emptyLines (some indent) 0 (rest.drop 1)
      blockLines folded indent rounds (b.addLine folded line (chars (rest.take 1)) breaks) after
    else some (b, cells)

/-- Reads a block scalar inside an indentation. -/
def block? (folded : Bool) (outer : Int) (cells : List Cell) : Option (List Char × List Cell) := do
  let (chomping, given, rest) := blockHeader cells
  let rest ← lineEnd? rest
  let indent := given.map fun n => (max outer 0).toNat + n
  let (breaks, widest, rest) ← emptyLines indent 0 rest
  let indent := indent.getD (max widest (max (outer + 1) 1).toNat)
  let (b, rest) ← blockLines folded indent (rest.length + 1) { breaks } rest
  return match chomping with
    | .strip => (b.text, rest)
    | .clip => (b.text ++ b.feed, rest)
    | .keep => (b.text ++ b.feed ++ b.breaks, rest)

end ApiModel.Yaml
