import ApiModel.Yaml.Scalar

/-!
# Tokens of a YAML text

What a text consists of: indicators, scalars, properties of nodes, and the starts and ends of blocks,
which indentation shows.

A key of a block mapping is only known as one at the colon behind it.  Where a key may begin, a
candidate is left among the tokens; the colon turns it into the start of a key, and of a mapping if
the key is indented further than the block around it.
-/

namespace ApiModel.Yaml

/-- A part of a YAML text. -/
inductive Token where
  | versionDirective (major minor : Nat)
  | tagDirective (handle tag : String)
  | documentStart | documentEnd
  | blockSequenceStart | blockMappingStart | blockEnd
  | flowSequenceStart | flowSequenceEnd | flowMappingStart | flowMappingEnd
  | blockEntry | flowEntry | key | value
  | alias (name : String)
  | anchor (name : String)
  | tag (handle suffix : String)
  | scalar (plain : Bool) (text : String)
  deriving DecidableEq

/-! ## Names and tags -/

/-- Reads the name of an anchor or alias, which an indicator or a gap has to follow. -/
def anchorName? (cells : List Cell) : Option (String × List Cell) :=
  let name := chars (cells.takeWhile (isNameChar ·.char))
  let rest := cells.dropWhile (isNameChar ·.char)
  let ends := beforeGap rest ||
    (next? rest).any fun c => ['?', ':', ',', ']', '\x7d', '%', '@', '`'].contains c
  if name.isEmpty || !ends then none else some (String.ofList name, rest)

/-- The character may stand in a tag; brackets and commas only between angle brackets. -/
def isTagChar (verbatim : Bool) (c : Char) : Bool :=
  isNameChar c ||
    [';', '/', '?', ':', '@', '&', '=', '+', '$', '.', '%', '!', '~', '*', '\'', '(', ')'].contains c ||
    (verbatim && (c == ',' || c == '[' || c == ']'))

/-- A byte written as a percent sign and two hexadecimal digits. -/
def escapedByte? : List Cell → Option (Nat × List Cell)
  | p :: h :: l :: rest => do
    guard (p.char == '%')
    return (16 * (← Text.digit? 16 h.char) + (← Text.digit? 16 l.char), rest)
  | _ => none

/-- The number of bytes of a character by its first byte. -/
def byteCount? (first : Nat) : Option Nat :=
  if first < 0x80 then some 1
  else if 0xc0 ≤ first ∧ first < 0xe0 then some 2
  else if 0xe0 ≤ first ∧ first < 0xf0 then some 3
  else if 0xf0 ≤ first ∧ first < 0xf8 then some 4
  else none

/-- Reads the further bytes of a character. -/
def furtherBytes? : (count : Nat) → List Cell → Option (List Nat × List Cell)
  | 0, cells => some ([], cells)
  | count + 1, cells => do
    let (b, rest) ← escapedByte? cells
    guard (decide (0x80 ≤ b) && decide (b < 0xc0))
    let (bs, rest) ← furtherBytes? count rest
    return (b :: bs, rest)

/-- Reads a character that is written as escaped bytes. -/
def escapedChar? (cells : List Cell) : Option (Char × List Cell) := do
  let (first, rest) ← escapedByte? cells
  let count ← byteCount? first
  let (bs, rest) ← furtherBytes? (count - 1) rest
  let low := if count = 1 then first else first % (0x80 >>> count)
  return (Char.ofNat (bs.foldl (fun n b => 64 * n + (b - 0x80)) low), rest)

/-- Reads the characters of a tag; each round reads one. -/
def tagTextFrom (verbatim : Bool) : (rounds : Nat) → List Cell → Option (List Char × List Cell)
  | 0, cells => some ([], cells)
  | rounds + 1, cells =>
    match cells with
    | [] => some ([], [])
    | c :: rest =>
      if !isTagChar verbatim c.char then some ([], cells)
      else do
        let (x, rest) ← if c.char = '%' then escapedChar? cells else some (c.char, rest)
        let (text, rest) ← tagTextFrom verbatim rounds rest
        return (x :: text, rest)

/-- Reads the characters of a tag, which may be none. -/
def tagText? (verbatim : Bool) (cells : List Cell) : Option (List Char × List Cell) :=
  tagTextFrom verbatim cells.length cells

/-- Reads a tag handle: an exclamation mark, a name and perhaps a second mark. -/
def tagHandle (cells : List Cell) : List Char × List Cell :=
  let name := cells.drop 1
  let handle := '!' :: chars (name.takeWhile (isNameChar ·.char))
  let rest := name.dropWhile (isNameChar ·.char)
  if next? rest = some '!' then (handle ++ ['!'], rest.drop 1) else (handle, rest)

/-- The handle is closed by a second mark. -/
def isClosed (handle : List Char) : Bool := 2 ≤ handle.length && handle.getLast? == some '!'

/-- Reads a tag up to what has to follow it. -/
def tagToken? (cells : List Cell) : Option (Token × List Cell) :=
  if (cells.drop 1).head?.any (·.char == '<') then do
    let (text, rest) ← tagText? true (cells.drop 2)
    guard (!text.isEmpty && next? rest == some '>')
    return (.tag "" (String.ofList text), rest.drop 1)
  else
    let (handle, rest) := tagHandle cells
    if isClosed handle then do
      let (text, rest) ← tagText? false rest
      guard !text.isEmpty
      return (.tag (String.ofList handle) (String.ofList text), rest)
    else do
      let (text, rest) ← tagText? false rest
      let suffix := handle.drop 1 ++ text
      return (if suffix.isEmpty then .tag "" "!" else .tag "!" (String.ofList suffix), rest)

/-! ## Directives -/

/-- Reads a number of at most nine digits. -/
def number? (cells : List Cell) : Option (Nat × List Cell) := do
  let digits := chars (cells.takeWhile (·.char.isDigit))
  guard (!digits.isEmpty && decide (digits.length ≤ 9))
  return (digits.foldl (fun n c => 10 * n + (c.toNat - 48)) 0, cells.dropWhile (·.char.isDigit))

/-- Reads a directive behind its percent sign, with the rest of its line. -/
def directive? (cells : List Cell) : Option (Token × List Cell) := do
  let name := String.ofList (chars (cells.takeWhile (isNameChar ·.char)))
  let rest := cells.dropWhile (isNameChar ·.char)
  guard (beforeGap rest)
  match name with
  | "YAML" =>
    let (major, rest) ← number? (dropBlanks rest)
    guard (next? rest == some '.')
    let (minor, rest) ← number? (rest.drop 1)
    return (.versionDirective major minor, ← lineEnd? rest)
  | "TAG" =>
    let rest := dropBlanks rest
    guard (next? rest == some '!')
    let (handle, rest) := tagHandle rest
    guard (isClosed handle || handle == ['!'])
    guard ((next? rest).any isBlank)
    let (text, rest) ← tagText? true (dropBlanks rest)
    guard (!text.isEmpty && beforeGap rest)
    return (.tagDirective (String.ofList handle) (String.ofList text), ← lineEnd? rest)
  | _ => none

/-! ## Lexing -/

/-- A token, or a place where a key may begin. -/
inductive Entry where
  | token (t : Token)
  | candidate (line column : Nat)

/-- Where a key may begin that the next colon ends. -/
structure Candidate where
  line : Nat
  column : Nat
  /-- Nothing else than a key can stand there. -/
  required : Bool

/-- How far a text is cut into tokens. -/
structure Lexer where
  /-- What was found, reversed. -/
  entries : List Entry := []
  /-- The column of the innermost block; the document's own is minus one. -/
  indent : Int := -1
  /-- The columns of the blocks around it. -/
  outerIndents : List Int := []
  /-- The candidate of the innermost flow collection or of the blocks. -/
  candidate : Option Candidate := none
  /-- The candidates around each open flow collection. -/
  outerCandidates : List (Option Candidate) := []
  /-- A key may begin here. -/
  keyAllowed : Bool := true

namespace Lexer

/-- A flow collection is open. -/
def inFlow (l : Lexer) : Bool := !l.outerCandidates.isEmpty

def emit (l : Lexer) (t : Token) : Lexer := { l with entries := .token t :: l.entries }

/-- Gives a candidate up; a required one has to be a key. -/
def dropCandidate (l : Lexer) : Option Lexer :=
  if l.candidate.any (·.required) then none else some { l with candidate := none }

/-- Notes that a key may begin at a cell. -/
def noteCandidate (l : Lexer) (c : Cell) : Option Lexer :=
  if l.keyAllowed then do
    let required := !l.inFlow && l.indent == (c.column : Int)
    let l ← l.dropCandidate
    return { l with
      candidate := some ⟨c.line, c.column, required⟩
      entries := .candidate c.line c.column :: l.entries }
  else some l

/-- A key ends on the line where it begins and has at most 1024 characters. -/
def Candidate.isStale (k : Candidate) (c : Cell) : Bool :=
  decide (k.line < c.line) || decide (k.column + 1024 < c.column)

/-- Gives up the candidates that cannot reach a cell. -/
def expire (l : Lexer) (c : Cell) : Option Lexer :=
  let isStale (k : Option Candidate) : Bool := k.any (Candidate.isStale · c)
  if (l.candidate :: l.outerCandidates).any fun k => isStale k && k.any (·.required) then none
  else
    let live (k : Option Candidate) : Option Candidate := if isStale k then none else k
    some { l with candidate := live l.candidate, outerCandidates := l.outerCandidates.map live }

/-- Closes the blocks that are indented further than a column. -/
def closeFrom (column indent : Int) (entries : List Entry) : List Int → Int × List Entry × List Int
  | [] => (indent, entries, [])
  | outer :: more =>
    if column < indent then closeFrom column outer (.token .blockEnd :: entries) more
    else (indent, entries, outer :: more)

/-- Closes the blocks that are indented further than a column; flow collections need none. -/
def close (l : Lexer) (column : Int) : Lexer :=
  if l.inFlow then l
  else
    let (indent, entries, outerIndents) := closeFrom column l.indent l.entries l.outerIndents
    { l with indent, entries, outerIndents }

/-- A block begins at a column: it is indented further than the one around it. -/
def opensAt (l : Lexer) (column : Nat) : Bool := !l.inFlow && decide (l.indent < (column : Int))

/-- Makes a column the innermost indentation. -/
def push (l : Lexer) (column : Nat) : Lexer :=
  { l with indent := column, outerIndents := l.indent :: l.outerIndents }

/-- Opens a block at a column if one begins there. -/
def openBlock (l : Lexer) (column : Nat) (start : Token) : Lexer :=
  if l.opensAt column then (l.push column).emit start else l

/-- The start of a document or a directive: nothing stays open. -/
def reset (l : Lexer) : Option Lexer := do
  let l ← (l.close (-1)).dropCandidate
  return { l with keyAllowed := false }

/-- Opens a flow collection. -/
def openFlow (l : Lexer) (c : Cell) (t : Token) : Option Lexer := do
  let l ← l.noteCandidate c
  return { l with
    candidate := none
    outerCandidates := l.candidate :: l.outerCandidates
    keyAllowed := true }.emit t

/-- Closes a flow collection. -/
def closeFlow (l : Lexer) (t : Token) : Option Lexer := do
  let l ← l.dropCandidate
  let l := { l with keyAllowed := false }
  return match l.outerCandidates with
    | [] => l.emit t
    | candidate :: outerCandidates => { l with candidate, outerCandidates }.emit t

/-- The entry of a block sequence or the start of an explicit key, with the block it may open. -/
def item (l : Lexer) (c : Cell) (start t : Token) (keyAllowed : Bool) : Option Lexer := do
  guard (l.inFlow || l.keyAllowed)
  let l ← (l.openBlock c.column start).dropCandidate
  return { l with keyAllowed }.emit t

/-- The candidate at a place turns out to be a key. -/
def resolve (k : Candidate) (found : List Entry) (entries : List Entry) : List Entry :=
  entries.flatMap fun e =>
    match e with
    | .token t => [.token t]
    | .candidate line column =>
      if line = k.line ∧ column = k.column then found else [.candidate line column]

/-- The colon behind a key. -/
def value (l : Lexer) (c : Cell) : Option Lexer :=
  match l.candidate with
  | some k =>
    let opens := l.opensAt k.column
    let found : List Entry :=
      if opens then [.token .key, .token .blockMappingStart] else [.token .key]
    let l := if opens then l.push k.column else l
    let entries := resolve k found l.entries
    some ({ l with entries, candidate := none, keyAllowed := false }.emit .value)
  | none => do
    guard (l.inFlow || l.keyAllowed)
    let l := l.openBlock c.column .blockMappingStart
    return { l with keyAllowed := !l.inFlow }.emit .value

/-- Skips blanks, comments and line ends; in a block, a new line may begin with a key. -/
def skip (inFlow : Bool) : (keyAllowed comment : Bool) → List Cell → Bool × List Cell
  | keyAllowed, _, [] => (keyAllowed, [])
  | keyAllowed, comment, c :: rest =>
    if isBreak c.char then skip inFlow (keyAllowed || !inFlow) false rest
    else if comment then skip inFlow keyAllowed true rest
    else if c.char == ' ' || (c.char == '\t' && (inFlow || !keyAllowed)) then
      skip inFlow keyAllowed false rest
    else if c.char == '#' then skip inFlow keyAllowed true rest
    else (keyAllowed, c :: rest)

/-- A plain scalar can begin with a character. -/
def beginsPlain (inFlow : Bool) (c : Char) (rest : List Cell) : Bool :=
  if c == '-' then (next? rest).all (!isBlank ·)
  else if c == '?' || c == ':' then !inFlow && !beforeGap rest
  else !(isGap c || isFlowMark c ||
    ['#', '&', '*', '!', '|', '>', '\'', '"', '%', '@', '`'].contains c)

/-- Notes a candidate at a cell, and then a token that no key can follow at once. -/
def node (l : Lexer) (c : Cell) (t : Token) : Option Lexer := do
  let l ← l.noteCandidate c
  return { l with keyAllowed := false }.emit t

/-- Cuts off the token that begins with a cell. -/
def token (l : Lexer) (c : Cell) (rest : List Cell) : Option (Lexer × List Cell) :=
  let here := c :: rest
  if c.column == 0 && c.char == '%' then do
    let l ← l.reset
    let (t, rest) ← directive? rest
    return (l.emit t, rest)
  else if isMarker '-' here then do return ((← l.reset).emit .documentStart, here.drop 3)
  else if isMarker '.' here then do return ((← l.reset).emit .documentEnd, here.drop 3)
  else if c.char == '[' then do return (← l.openFlow c .flowSequenceStart, rest)
  else if c.char == '\x7b' then do return (← l.openFlow c .flowMappingStart, rest)
  else if c.char == ']' then do return (← l.closeFlow .flowSequenceEnd, rest)
  else if c.char == '\x7d' then do return (← l.closeFlow .flowMappingEnd, rest)
  else if c.char == ',' then do
    let l ← l.dropCandidate
    return ({ l with keyAllowed := true }.emit .flowEntry, rest)
  else if c.char == '-' && beforeGap rest then do
    return (← l.item c .blockSequenceStart .blockEntry true, rest)
  else if c.char == '?' && (l.inFlow || beforeGap rest) then do
    return (← l.item c .blockMappingStart .key (!l.inFlow), rest)
  else if c.char == ':' && (l.inFlow || beforeGap rest) then do return (← l.value c, rest)
  else if c.char == '*' then do
    let (name, rest) ← anchorName? rest
    return (← l.node c (.alias name), rest)
  else if c.char == '&' then do
    let (name, rest) ← anchorName? rest
    return (← l.node c (.anchor name), rest)
  else if c.char == '!' then do
    let (t, rest) ← tagToken? here
    guard (beforeGap rest || (l.inFlow && next? rest == some ','))
    return (← l.node c t, rest)
  else if (c.char == '|' || c.char == '>') && !l.inFlow then do
    let l ← l.dropCandidate
    let (text, rest) ← block? (c.char == '>') l.indent rest
    return ({ l with keyAllowed := true }.emit (.scalar false (String.ofList text)), rest)
  else if c.char == '\'' || c.char == '"' then do
    let (text, rest) ← quoted? c.char rest
    return (← l.node c (.scalar false (String.ofList text)), rest)
  else if beginsPlain l.inFlow c.char rest then do
    let s ← plain? l.inFlow (l.indent + 1) here
    let l ← l.node c (.scalar true (String.ofList s.text))
    return ({ l with keyAllowed := s.endsLine }, s.rest)
  else none

/-- The tokens that were found. -/
def tokens (l : Lexer) : List Token :=
  l.entries.reverse.filterMap fun
    | .token t => some t
    | .candidate .. => none

/-- Cuts the rest of a text into tokens; each round cuts off one. -/
def run : (rounds : Nat) → Lexer → List Cell → Option (List Token)
  | 0, _, _ => none
  | rounds + 1, l, cells =>
    let (keyAllowed, cells) := skip l.inFlow l.keyAllowed false cells
    let l := { l with keyAllowed }
    match cells with
    | [] => do return (← (l.close (-1)).dropCandidate).tokens
    | c :: rest => do
      let l ← l.expire c
      let (l, rest) ← (l.close c.column).token c rest
      run rounds l rest

end Lexer

/-- The tokens of a text. -/
def tokens? (s : String) : Option (List Token) :=
  if s.toList.all isAdmitted then
    let cells := cells s
    Lexer.run (cells.length + 1) {} cells
  else none

end ApiModel.Yaml
