/-!
# Digits

The values of digits in bases up to sixteen, and of the numbers they make.
-/

namespace ApiModel.Text

/-- The value of a digit in a base; letters of either case go on from nine. -/
def digit? (base : Nat) (c : Char) : Option Nat :=
  let value :=
    if c.isDigit then some (c.toNat - 48)
    else if 'a' ≤ c ∧ c ≤ 'f' then some (c.toNat - 87)
    else if 'A' ≤ c ∧ c ≤ 'F' then some (c.toNat - 55)
    else none
  value.filter fun n => decide (n < base)

def isDigit (base : Nat) (c : Char) : Bool := (digit? base c).isSome

/-- The number with the given digits in a base. -/
def number? (base : Nat) (digits : List Char) : Option Nat :=
  digits.foldlM (fun n c => (digit? base c).map (base * n + ·)) 0

/-- The character with a code of a fixed number of hexadecimal digits. -/
def coded? (length : Nat) (digits : List Char) : Option Char := do
  guard (digits.length == length)
  let n ← number? 16 digits
  if n.isValidChar then some (Char.ofNat n) else none

example : number? 16 ['f', 'F'] = some 255 := by decide

example : number? 8 ['7', '8'] = none := by decide

end ApiModel.Text
