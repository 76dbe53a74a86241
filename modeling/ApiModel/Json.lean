/-!
# JSON documents

A value of JSON with its members in order, and its two texts: `compact` without any blanks, `pretty`
with one element a line and two spaces for each level.

In strings, quotes, backslashes and control characters are escaped; every other character stands for
itself.
-/

namespace ApiModel

inductive Json where
  | null
  | bool (b : Bool)
  | str (s : String)
  | arr (items : List Json)
  | obj (members : List (String × Json))

namespace Json

/-! ## Strings -/

/-- A digit of a hexadecimal number, in lower case. -/
def hexDigit (n : Nat) : Char := if n < 10 then Char.ofNat (48 + n) else Char.ofNat (87 + n)

/-- A character as it is written in a string. -/
def escapeChar (c : Char) : List Char :=
  if c = '"' then ['\\', '"']
  else if c = '\\' then ['\\', '\\']
  else if c = '\n' then ['\\', 'n']
  else if c = '\r' then ['\\', 'r']
  else if c = '\t' then ['\\', 't']
  else if c = '\x08' then ['\\', 'b']
  else if c = '\x0c' then ['\\', 'f']
  else if c.toNat < 0x20 then ['\\', 'u', '0', '0', hexDigit (c.toNat / 16), hexDigit (c.toNat % 16)]
  else [c]

/-- The text between quotes. -/
def quote (s : String) : String := String.ofList ('"' :: s.toList.flatMap escapeChar ++ ['"'])

/-! ## Documents -/

mutual

/-- The document without blanks. -/
def compact : Json → String
  | .null => "null"
  | .bool b => if b then "true" else "false"
  | .str s => quote s
  | .arr items => "[" ++ compactItems items ++ "]"
  | .obj members => "\x7b" ++ compactMembers members ++ "\x7d"

def compactItems : List Json → String
  | [] => ""
  | [v] => v.compact
  | v :: w :: rest => v.compact ++ "," ++ compactItems (w :: rest)

def compactMembers : List (String × Json) → String
  | [] => ""
  | [(k, v)] => quote k ++ ":" ++ v.compact
  | (k, v) :: m :: rest => quote k ++ ":" ++ v.compact ++ "," ++ compactMembers (m :: rest)

end

/-- The start of a line at a level. -/
def newLine (level : Nat) : String := "\n" ++ String.ofList (List.replicate (2 * level) ' ')

mutual

/-- The document with one element a line; `level` is that of the line it starts on. -/
def prettyAt (level : Nat) : Json → String
  | .null => "null"
  | .bool b => if b then "true" else "false"
  | .str s => quote s
  | .arr [] => "[]"
  | .arr (v :: rest) => "[" ++ prettyItems level (v :: rest) ++ newLine level ++ "]"
  | .obj [] => "\x7b\x7d"
  | .obj (m :: rest) => "\x7b" ++ prettyMembers level (m :: rest) ++ newLine level ++ "\x7d"

def prettyItems (level : Nat) : List Json → String
  | [] => ""
  | [v] => newLine (level + 1) ++ prettyAt (level + 1) v
  | v :: w :: rest =>
    newLine (level + 1) ++ prettyAt (level + 1) v ++ "," ++ prettyItems level (w :: rest)

def prettyMembers (level : Nat) : List (String × Json) → String
  | [] => ""
  | [(k, v)] => newLine (level + 1) ++ quote k ++ ": " ++ prettyAt (level + 1) v
  | (k, v) :: m :: rest =>
    newLine (level + 1) ++ quote k ++ ": " ++ prettyAt (level + 1) v ++ "," ++
      prettyMembers level (m :: rest)

end

/-- The document with one element a line. -/
def pretty (v : Json) : String := prettyAt 0 v

/-! ## Building documents -/

def strings (ss : List String) : Json := .arr (ss.map .str)

def ofOption {α : Type} (f : α → Json) (a : Option α) : Json := a.elim .null f

end Json

end ApiModel
