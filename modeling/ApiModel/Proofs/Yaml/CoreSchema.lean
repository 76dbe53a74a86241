import ApiModel.Yaml.Record
import Mathlib.Algebra.Group.Nat.Defs
import Mathlib.Data.Option.Basic

/-!
# What plain scalars stand for

A reader that is not told the type of a value goes by the core schema: a plain scalar stands for nothing,
for a truth value or for a number where it looks like one, and for its own text otherwise.

* Whole numbers may be written in base ten, or behind `0x`, `0o` and `0b`; those of a base count up to
  128 bits.  Digits behind a padding zero are a text.
* Other numbers are decimal fractions with or without an exponent, if they are finite at double precision,
  and the words for infinity and for no number.

Principal result: `isText_of_head` — what begins like an identifier is a text unless it is one of the
reserved words.
-/

namespace ApiModel.Yaml

namespace Core

/-! ## Words -/

def trueWords : List String := ["true", "True", "TRUE"]

def falseWords : List String := ["false", "False", "FALSE"]

def infinityWords : List String := [".inf", ".Inf", ".INF"]

def noNumberWords : List String := [".nan", ".NaN", ".NAN"]

/-- The words that stand for something else than their text. -/
def reservedWords : List String := Document.nullWords ++ trueWords ++ falseWords

/-! ## Whole numbers -/

/-- The bases that are announced by a letter. -/
def bases : List (Char × Nat) := [('x', 16), ('o', 8), ('b', 2)]

/-- The digits make a number of at most a size. -/
def isBounded (base bound : Nat) (digits : List Char) : Bool :=
  !digits.isEmpty && (Text.number? base digits).any (decide <| · ≤ bound)

/-- Digits behind the letter of their base. -/
def isBased (bound : Nat) : List Char → Bool
  | '0' :: letter :: digits => bases.any fun b => b.1 == letter && isBounded b.2 bound digits
  | _ => false

/-- A number in a base other than ten. -/
def isBasedNumber : List Char → Bool
  | '-' :: number => isBased (2 ^ 127) number
  | '+' :: number => isBased (2 ^ 128 - 1) number
  | number => isBased (2 ^ 128 - 1) number

/-! ## Decimal numbers -/

/-- The text behind a sign, if it has one. -/
def unsigned : List Char → List Char
  | '+' :: rest => rest
  | '-' :: rest => rest
  | cs => cs

/-- Digits behind a padding zero. -/
def isPadded (cs : List Char) : Bool :=
  match unsigned cs with
  | '0' :: c :: rest => (c :: rest).all (·.isDigit)
  | _ => false

/-- An exponent, which may be left out. -/
def exponent? : List Char → Option Int
  | [] => some 0
  | e :: cs => do
    guard ((e == 'e' || e == 'E') && !(unsigned cs).isEmpty)
    let n ← Text.number? 10 (unsigned cs)
    return if cs.head? = some '-' then -n else n

/-- A decimal number without a sign, as its digits and the power of ten that they are multiplied by. -/
def decimal? (cs : List Char) : Option (Nat × Int) := do
  let whole := cs.takeWhile (·.isDigit)
  let rest := cs.dropWhile (·.isDigit)
  let fraction := if rest.head? = some '.' then (rest.drop 1).takeWhile (·.isDigit) else []
  let rest := if rest.head? = some '.' then (rest.drop 1).dropWhile (·.isDigit) else rest
  guard !(whole ++ fraction).isEmpty
  let n ← Text.number? 10 (whole ++ fraction)
  return (n, (← exponent? rest) - fraction.length)

/-- The number rounds to a finite one at double precision. -/
def isFinite (n : Nat) (power : Int) : Bool :=
  decide (n * 10 ^ power.toNat < (2 ^ 1024 - 2 ^ 970) * 10 ^ (-power).toNat)

def isDecimal (cs : List Char) : Bool :=
  !isPadded cs && (decimal? (unsigned cs)).any fun d => isFinite d.1 d.2

/-! ## Scalars -/

def isNumber (s : String) : Bool :=
  isBasedNumber s.toList || isDecimal s.toList ||
    infinityWords.contains (String.ofList (unsigned s.toList)) || noNumberWords.contains s

/-- The plain scalar stands for its own text. -/
def isText (s : String) : Bool := !s.isEmpty && !reservedWords.contains s && !isNumber s

/-- No number begins with the character. -/
def beginsNoNumber (c : Char) : Bool := !c.isDigit && c != '+' && c != '-' && c != '.'

variable {c : Char} {cs : List Char}

theorem unsigned_of_head (h : beginsNoNumber c = true) : unsigned (c :: cs) = c :: cs := by
  unfold unsigned
  split
  · simp_all [beginsNoNumber]
  · simp_all [beginsNoNumber]
  · rfl

theorem not_isBasedNumber_of_head (h : beginsNoNumber c = true) :
    isBasedNumber (c :: cs) = false := by
  have hdigit : c ≠ '0' := by
    rintro rfl
    exact absurd h (by decide)
  unfold isBasedNumber
  split
  · simp_all [beginsNoNumber]
  · simp_all [beginsNoNumber]
  · unfold isBased
    split
    · simp_all
    · rfl

theorem decimal?_of_head (h : beginsNoNumber c = true) : decimal? (c :: cs) = none := by
  simp only [beginsNoNumber, Bool.and_eq_true, Bool.not_eq_true', bne_iff_ne] at h
  obtain ⟨⟨⟨hdigit, -⟩, -⟩, hpoint⟩ := h
  unfold decimal?
  simp [hdigit, hpoint, guard]

theorem not_isNumber_of_head (h : beginsNoNumber c = true) :
    isNumber (String.ofList (c :: cs)) = false := by
  have hword : ∀ words : List String, (∀ w ∈ words, w.toList.head? = some '.') →
      words.contains (String.ofList (c :: cs)) = false := by
    intro words hwords
    rw [List.contains_eq_mem, decide_eq_false_iff_not]
    intro hmem
    have hpoint := hwords _ hmem
    rw [String.toList_ofList, List.head?_cons, Option.some.injEq] at hpoint
    subst hpoint
    exact absurd h (by decide)
  unfold isNumber isDecimal
  rw [String.toList_ofList, unsigned_of_head h, not_isBasedNumber_of_head h, decimal?_of_head h,
    hword infinityWords (by decide), hword noNumberWords (by decide)]
  simp

/-- **What begins like an identifier is a text** unless it is one of the reserved words. -/
theorem isText_of_head (h : beginsNoNumber c = true) :
    isText (String.ofList (c :: cs)) = !reservedWords.contains (String.ofList (c :: cs)) := by
  have hne : (String.ofList (c :: cs)).isEmpty = false := by
    rw [Bool.eq_false_iff, ne_eq, String.isEmpty_iff]
    intro hnil
    have hlist := congrArg String.toList hnil
    rw [String.toList_ofList] at hlist
    cases hlist
  unfold isText
  rw [not_isNumber_of_head h, hne]
  simp

example : ["Null", "True", "12", "0x1F", "1e3", "-.inf", "", "1_000", "007", "Get"].map isText =
    [false, false, false, false, false, false, false, true, true, true] := by decide +kernel

end Core

end ApiModel.Yaml
