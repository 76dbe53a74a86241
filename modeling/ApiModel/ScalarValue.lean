import ApiModel.Descriptor.Basic
import ApiModel.Model.Message

/-!
# Values of scalar types

How a number, a text or the name of an enumeration's value is written in the wire format for a field of
a kind.  `none` is a value that a field of the kind cannot have.
-/

namespace ApiModel

open ApiModel.Wire

namespace FieldKind

/-- The whole numbers of a kind: the least and the greatest. -/
def bounds? : FieldKind → Option (Int × Int)
  | .int32 | .sint32 | .sfixed32 => some (-0x80000000, 0x7fffffff)
  | .int64 | .sint64 | .sfixed64 => some (-0x8000000000000000, 0x7fffffffffffffff)
  | .uint32 | .fixed32 => some (0, 0xffffffff)
  | .uint64 | .fixed64 => some (0, 0xffffffffffffffff)
  | _ => none

/-- How a whole number is written. -/
def writeInteger (kind : FieldKind) (i : Int) : Value :=
  match kind with
  | .sint32 | .sint64 => .varint (zigzag i)
  | .fixed32 | .sfixed32 => .fixed32 (littleEndian 4 (ofInt64 i))
  | .fixed64 | .sfixed64 => .fixed64 (littleEndian 8 (ofInt64 i))
  | _ => .varint (ofInt64 i)

/-- A whole number as a value of a kind of whole numbers. -/
def ofInteger? (kind : FieldKind) (i : Int) : Option Value := do
  let (low, high) ← kind.bounds?
  guard (decide (low ≤ i) && decide (i ≤ high))
  return kind.writeInteger i

/-- A number with decimal places as a value of a kind of such numbers. -/
def ofFloat? (kind : FieldKind) (x : Float) : Option Value :=
  match kind with
  | .double => some (.fixed64 (littleEndian 8 x.toBits.toNat))
  | .float => some (.fixed32 (littleEndian 4 x.toFloat32.toBits.toNat))
  | _ => none

/-- Bytes as a value of a kind; those of a text are well-formed UTF-8. -/
def ofBytes? (kind : FieldKind) (bytes : Bytes) : Option Value :=
  match kind with
  | .string => if (Value.delimited bytes).text?.isSome then some (.delimited bytes) else none
  | .bytes => some (.delimited bytes)
  | _ => none

end FieldKind

/-- The number of the value with a name. -/
def EnumDescriptor.number? (e : EnumDescriptor) (name : String) : Option Int :=
  (e.values.find? (·.name == name)).map (·.number)

end ApiModel
