/-!
# The wire format of descriptor sets

A message is a sequence of fields, each a key and a payload.  The key is a varint that holds the field
number and the payload's form; a varint has seven bits a byte, low bits first, and at most ten bytes
for 64 bits.

`items` cuts bytes into keys and payloads, `nest` puts what stands between the two keys of a group
into the group's field, and `fields` does both.  `none` is malformed input: bytes are missing, a
number or a form does not exist, or groups do not nest.
-/

namespace ApiModel.Wire

abbrev Bytes := List UInt8

/-! ## Numbers -/

/-- Reads a varint of at most `room` bytes; the last byte that is possible holds one bit. -/
def varint : (room : Nat) → Bytes → Option (Nat × Bytes)
  | 0, _ => none
  | _, [] => none
  | room + 1, b :: rest =>
    if b < 128 then if room = 0 ∧ 1 < b then none else some (b.toNat, rest)
    else (varint room rest).map fun (high, rest) => (b.toNat - 128 + 128 * high, rest)

/-- A number as a signed integer of 32 bits: the higher bits are dropped. -/
def toInt32 (n : Nat) : Int :=
  let low : Nat := n % 0x100000000
  if low < 0x80000000 then (low : Int) else (low : Int) - 0x100000000

/-- A number as a signed integer of 64 bits. -/
def toInt64 (n : Nat) : Int :=
  let low : Nat := n % 0x10000000000000000
  if low < 0x8000000000000000 then (low : Int) else (low : Int) - 0x10000000000000000

/-- The number that stands for a signed integer of 64 bits. -/
def ofInt64 (i : Int) : Nat := (i % 0x10000000000000000).toNat

/-- The number that stands for a signed integer where small amounts of either sign are short. -/
def zigzag (i : Int) : Nat := if 0 ≤ i then (2 * i).toNat else (-2 * i - 1).toNat

/-- The low bytes of a number, lowest first. -/
def littleEndian : (size : Nat) → Nat → Bytes
  | 0, _ => []
  | size + 1, n => UInt8.ofNat n :: littleEndian size (n / 256)

/-! ## Items -/

/-- What follows a key. -/
inductive Payload where
  | varint (n : Nat)
  | fixed64 (bytes : Bytes)
  | delimited (bytes : Bytes)
  | groupStart
  | groupEnd
  | fixed32 (bytes : Bytes)

/-- A field number and what follows its key. -/
structure Item where
  number : Nat
  payload : Payload

/-- Takes a number of bytes off the front. -/
def split (n : Nat) (s : Bytes) : Option (Bytes × Bytes) :=
  if n ≤ s.length then some (s.take n, s.drop n) else none

/-- Reads a payload of a form. -/
def payload (form : Nat) (s : Bytes) : Option (Payload × Bytes) :=
  match form with
  | 0 => (varint 10 s).map fun (n, rest) => (.varint n, rest)
  | 1 => (split 8 s).map fun (bytes, rest) => (.fixed64 bytes, rest)
  | 2 => do
    let (n, rest) ← varint 10 s
    let (bytes, rest) ← split n rest
    return (.delimited bytes, rest)
  | 3 => some (.groupStart, s)
  | 4 => some (.groupEnd, s)
  | 5 => (split 4 s).map fun (bytes, rest) => (.fixed32 bytes, rest)
  | _ => none

/-- Reads one item; keys have 32 bits and there is no field zero. -/
def item (s : Bytes) : Option (Item × Bytes) := do
  let (key, rest) ← varint 10 s
  guard (decide (key < 0x100000000) && decide (8 ≤ key))
  let (payload, rest) ← payload (key % 8) rest
  return (⟨key / 8, payload⟩, rest)

/-- Reads at most `count` items, which have to reach the end. -/
def itemsUpTo : (count : Nat) → Bytes → Option (List Item)
  | _, [] => some []
  | 0, _ :: _ => none
  | count + 1, s@(_ :: _) => do
    let (first, rest) ← item s
    return first :: (← itemsUpTo count rest)

/-- The items of a message; each has at least one byte. -/
def items (s : Bytes) : Option (List Item) := itemsUpTo s.length s

/-! ## Fields -/

/-- The value of a field. -/
inductive Value where
  | varint (n : Nat)
  | fixed64 (bytes : Bytes)
  | delimited (bytes : Bytes)
  | group (fields : List (Nat × Value))
  | fixed32 (bytes : Bytes)

/-- A field number and a value. -/
abbrev Field := Nat × Value

/-- A group whose end has not come: its number and the fields before it, reversed. -/
structure OpenGroup where
  number : Nat
  before : List Field

/-- Nests groups.  `done` holds the fields since the innermost open group, reversed. -/
def nestFrom (groups : List OpenGroup) (done : List Field) : List Item → Option (List Field)
  | [] => if groups.isEmpty then some done.reverse else none
  | ⟨n, p⟩ :: rest =>
    match p with
    | .varint v => nestFrom groups ((n, .varint v) :: done) rest
    | .fixed64 v => nestFrom groups ((n, .fixed64 v) :: done) rest
    | .delimited v => nestFrom groups ((n, .delimited v) :: done) rest
    | .fixed32 v => nestFrom groups ((n, .fixed32 v) :: done) rest
    | .groupStart => nestFrom (⟨n, done⟩ :: groups) [] rest
    | .groupEnd =>
      match groups with
      | [] => none
      | g :: groups =>
        if g.number = n then nestFrom groups ((n, .group done.reverse) :: g.before) rest else none

/-- The fields of a message. -/
def fields (s : Bytes) : Option (List Field) := do nestFrom [] [] (← items s)

/-! ## Typed values -/

namespace Value

/-- A text is delimited and well-formed UTF-8. -/
def text? : Value → Option String
  | .delimited bytes => String.fromUTF8? ⟨bytes.toArray⟩
  | _ => none

def bytes? : Value → Option Bytes
  | .delimited bytes => some bytes
  | _ => none

/-- The number of a varint. -/
def number? : Value → Option Nat
  | .varint n => some n
  | _ => none

def fixed64? : Value → Option Bytes
  | .fixed64 bytes => some bytes
  | _ => none

def int32? : Value → Option Int
  | .varint n => some (toInt32 n)
  | _ => none

def bool? : Value → Option Bool
  | .varint n => some (n != 0)
  | _ => none

/-- The value is zero or empty. -/
def isZero : Value → Bool
  | .varint n => n == 0
  | .fixed64 bytes => bytes.all (· == 0)
  | .delimited bytes => bytes.isEmpty
  | .group fields => fields.isEmpty
  | .fixed32 bytes => bytes.all (· == 0)

/-- The value, with the groups in it, is at most so many levels deep. -/
def fits : (depth : Nat) → Value → Bool
  | 0, _ => false
  | depth + 1, .group fields => fields.all fun f => fits depth f.2
  | _ + 1, _ => true

/-- The groups of the value are at most so many levels deep. -/
def groupsFit : (depth : Nat) → Value → Bool
  | 0, .group _ => false
  | depth + 1, .group fields => fields.all fun f => groupsFit depth f.2
  | _, _ => true

end Value

/-! ## Lists of numbers -/

/-- Reads at most `count` numbers of a packed list, which have to reach the end. -/
def packedUpTo : (count : Nat) → Bytes → Option (List Int)
  | _, [] => some []
  | 0, _ :: _ => none
  | count + 1, s@(_ :: _) => do
    let (n, rest) ← varint 10 s
    return toInt32 n :: (← packedUpTo count rest)

/-- The numbers of one entry of a repeated number field: one, or a packed list. -/
def Value.int32s? : Value → Option (List Int)
  | .varint n => some [toInt32 n]
  | .delimited bytes => packedUpTo bytes.length bytes
  | _ => none

/-- How a number is written. -/
inductive NumberForm where
  | varint | fixed32 | fixed64
  deriving DecidableEq

/-- The value is a number of a form. -/
def Value.isNumber : Value → NumberForm → Bool
  | .varint _, .varint => true
  | .fixed32 _, .fixed32 => true
  | .fixed64 _, .fixed64 => true
  | _, _ => false

/-- The value is a packed list of numbers of a form. -/
def Value.isPacked : Value → NumberForm → Bool
  | .delimited bytes, .varint => (packedUpTo bytes.length bytes).isSome
  | .delimited bytes, .fixed32 => bytes.length % 4 == 0
  | .delimited bytes, .fixed64 => bytes.length % 8 == 0
  | _, _ => false

end ApiModel.Wire
