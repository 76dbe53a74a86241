import ApiModel.Text.LetterTable

/-!
# Letter case

The Unicode properties `Uppercase` and `Lowercase`, the full upper-case mapping, which may turn one
character into several, and comparison without regard to the case of ASCII letters.
-/

namespace ApiModel.Text

def isUpperLetter (c : Char) : Bool :=
  if c.toNat < 0x80 then c.isUpper else upperRuns.any (·.has c.toNat)

def isLowerLetter (c : Char) : Bool :=
  if c.toNat < 0x80 then c.isLower else lowerRuns.any (·.has c.toNat)

/-- The capital form of a character: `ß` becomes `SS`. -/
def capital (c : Char) : List Char :=
  if c.toNat < 0x80 then [c.toUpper]
  else
    match wideCapitals.find? (·.1 == c.toNat) with
    | some wide => wide.2
    | none =>
      match capitalRuns.find? (·.1.has c.toNat) with
      | some (_, added, subtracted) => [Char.ofNat (c.toNat + added - subtracted)]
      | none => [c]

/-- The text in capitals. -/
def capitals (s : List Char) : List Char := s.flatMap capital

/-- The text with its ASCII letters in lower case. -/
def foldCase (s : List Char) : List Char := s.map Char.toLower

/-- The texts are equal up to the case of ASCII letters. -/
def sameLetters (a b : List Char) : Bool := foldCase a == foldCase b

example : capitals "straße".toList = "STRASSE".toList := by decide +kernel

end ApiModel.Text
