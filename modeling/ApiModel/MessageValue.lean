import ApiModel.Schema.StandardOptions

/-!
# Values of a schema's messages

A message value is the type it is of and the fields that its bytes hold.  What a field says depends on
the type: a field number stands for the field of the message with that number, or else for the
extension of the message with it.

Of a single text, number or flag the last entry counts, entries of a single message are merged, and
of the fields of a one-of only the one that was written last is there.  An accessor yields nothing for
a field of another type than the one it reads.

`Schema.admits` tells whether fields are in the forms of their types, down to a depth.
-/

namespace ApiModel

open ApiModel.Wire

/-- A value of a message type of a schema. -/
structure MessageValue where
  schema : Schema
  fullName : String
  descriptor : MessageDescriptor FieldType
  fields : List Wire.Field

namespace MessageValue

/-- What is known about a field of the message: its descriptor, and the numbers of the other fields
of its one-of. -/
structure Slot where
  field : FieldDescriptor FieldType
  rivals : List Int := []

/-- The slot of a field that the message declares. -/
def ownSlot (v : MessageValue) (f : FieldDescriptor FieldType) : Slot :=
  let rivals := f.oneofIndex.elim [] fun i =>
    ((v.descriptor.oneofMembers i.toNat).map (·.number)).filter (· != f.number)
  { field := f, rivals }

/-- The slot of a field by its name. -/
def named? (v : MessageValue) (name : String) : Option Slot :=
  (v.descriptor.fields.find? (·.name == name)).map v.ownSlot

/-- The slot of an extension of the message by its full name. -/
def extensionNamed? (v : MessageValue) (fullName : String) : Option Slot :=
  ((v.schema.extensions.get? fullName).filter (·.extendee == some v.fullName)).map fun field =>
    { field }

/-- The slot of a field or extension by its number; of extensions with one number the first counts. -/
def numbered? (v : MessageValue) (number : Int) : Option Slot :=
  match v.descriptor.fields.find? (·.number == number) with
  | some f => some (v.ownSlot f)
  | none =>
    (v.schema.extensionOrder.find? fun f =>
      f.extendee == some v.fullName && f.number == number).map fun field => { field }

/-- The slot that the number of an extension stands for. -/
def extension? (v : MessageValue) (fullName : String) : Option Slot := do
  v.numbered? (← v.schema.extensions.get? fullName).number

/-- The part of a list behind the last element that passes a test. -/
def behindLast {α : Type} (p : α → Bool) (as : List α) : List α :=
  (as.reverse.takeWhile (!p ·)).reverse

/-- The entries of a field; those before an entry of another field of its one-of are gone. -/
def entries (v : MessageValue) (slot : Slot) : List Value :=
  let live := behindLast (fun f => slot.rivals.contains f.1) v.fields
  (live.filter fun f => (f.1 : Int) == slot.field.number).map (·.2)

/-- The fields that a message or group holds. -/
def fieldsOf : Value → List Wire.Field
  | .delimited bytes => (Wire.fields bytes).getD []
  | .group fields => fields
  | _ => []

/-- A value of a message type of the schema. -/
def ofType? (schema : Schema) (fullName : String) (fields : List Wire.Field) :
    Option MessageValue :=
  (schema.messages.get? fullName).map fun descriptor => { schema, fullName, descriptor, fields }

/-! ## Single fields -/

/-- The last entry of a single field. -/
def last? (v : MessageValue) (slot : Slot) : Option Value := (v.entries slot).getLast?

/-- A single field is set; one that does not track its presence is not if it holds zero or nothing. -/
def isSet (v : MessageValue) (slot : Slot) : Bool :=
  (v.last? slot).any fun entry => slot.field.tracksPresence || !entry.isZero

/-- The text of a single text field; its default if it is not set. -/
def text? (v : MessageValue) (slot : Slot) : Option String :=
  if slot.field.type = .scalar .string ∧ slot.field.cardinality ≠ .repeated then
    match v.last? slot with
    | some entry => entry.text?
    | none => some (slot.field.default.getD "")
  else none

/-- The text of a field by its name; empty if there is no such text. -/
def textNamed (v : MessageValue) (name : String) : String :=
  ((v.named? name).bind v.text?).getD ""

/-- The flag of a field by its name. -/
def flagNamed (v : MessageValue) (name : String) : Bool :=
  (v.named? name).any fun slot =>
    decide (slot.field.type = .scalar .bool) && slot.field.cardinality != .repeated &&
      match v.last? slot with
      | some entry => entry.bool? == some true
      | none => slot.field.default == some "true"

/-- The message of a single message field, its entries merged; empty if it is not set. -/
def message? (v : MessageValue) (slot : Slot) : Option MessageValue := do
  let fullName ← slot.field.type.messageName?
  guard (slot.field.cardinality != .repeated)
  ofType? v.schema fullName ((v.entries slot).flatMap fieldsOf)

/-! ## Repeated fields -/

/-- The messages of a repeated message field; maps are no lists of messages. -/
def messages (v : MessageValue) (slot : Slot) : List MessageValue :=
  match slot.field.type.messageName? with
  | some fullName =>
    if slot.field.cardinality = .repeated then
      ((v.entries slot).filterMap fun entry => ofType? v.schema fullName (fieldsOf entry)).filter
        (!·.descriptor.isMapEntry)
    else []
  | none => []

/-- The texts of a repeated text field. -/
def texts (v : MessageValue) (slot : Slot) : List String :=
  if slot.field.type = .scalar .string ∧ slot.field.cardinality = .repeated then
    (v.entries slot).filterMap (·.text?)
  else []

/-- The numbers of the values of a repeated enumeration field. -/
def enumNumbers (v : MessageValue) (slot : Slot) : List Int :=
  match slot.field.type with
  | .enumeration _ =>
    if slot.field.cardinality = .repeated then
      (v.entries slot).flatMap fun entry => entry.int32s?.getD []
    else []
  | _ => []

end MessageValue

/-! ## Forms -/

/-- How numbers of a kind are written; texts and bytes are none. -/
def FieldKind.form? : FieldKind → Option NumberForm
  | .double | .fixed64 | .sfixed64 => some .fixed64
  | .float | .fixed32 | .sfixed32 => some .fixed32
  | .int64 | .uint64 | .int32 | .bool | .uint32 | .sint32 | .sint64 => some .varint
  | _ => none

namespace FieldType

/-- How numbers of a type are written. -/
def form? : FieldType → Option NumberForm
  | .scalar kind => kind.form?
  | .enumeration _ => some .varint
  | _ => none

/-- A single value is in the form of a type; `inner` tells it for the fields of a message. -/
def admits (inner : String → List Wire.Field → Bool) (type : FieldType) (v : Value) : Bool :=
  match type, v with
  | .message fullName, .delimited bytes => (Wire.fields bytes).any (inner fullName)
  | .group fullName, .group fields => inner fullName fields
  | .scalar .string, v => v.text?.isSome
  | .scalar .bytes, v => v.bytes?.isSome
  | type, v => type.form?.any v.isNumber

end FieldType

namespace FieldDescriptor

/-- An entry of a field is in the form of its type; numbers of a list may be packed. -/
def admits (inner : String → List Wire.Field → Bool) (f : FieldDescriptor FieldType) (v : Value) :
    Bool :=
  f.type.admits inner v || f.isRepeated && f.type.form?.any v.isPacked

end FieldDescriptor

namespace MessageValue

/-- All fields are in the forms of their types; `others` tells it for fields that the message does not
have, and `inner` for the fields of the messages in it. -/
def isAdmitted (others : Value → Bool) (inner : String → List Wire.Field → Bool)
    (v : MessageValue) : Bool :=
  v.fields.all fun f =>
    match v.numbered? f.1 with
    | some slot => slot.field.admits inner f.2
    | none => others f.2

end MessageValue

namespace Schema

/-- The fields of a message are in the forms of their types and nest at most so many levels deep;
`others` tells it at a depth for fields that a message does not have. -/
def admits (schema : Schema) (others : Nat → Value → Bool) :
    (depth : Nat) → String → List Wire.Field → Bool
  | 0, fullName, fields =>
    (MessageValue.ofType? schema fullName fields).any fun v =>
      v.isAdmitted (others 0) fun _ _ => false
  | depth + 1, fullName, fields =>
    (MessageValue.ofType? schema fullName fields).any fun v =>
      v.isAdmitted (others (depth + 1)) (schema.admits others depth)

/-! ## Options -/

/-- The schema that declares the options of an element: this one, or else the standard one, in which
the extensions of this schema are known by name only. -/
def optionTypes (schema : Schema) (owner : OptionsOwner) : Schema :=
  if (schema.messages.get? owner.typeName).isSome then schema
  else { Schema.standard with extensions := schema.extensions }

/-- The options of an element as a message. -/
def options (schema : Schema) (owner : OptionsOwner) (fields : Options) : MessageValue :=
  let types := schema.optionTypes owner
  { schema := types
    fullName := owner.typeName
    descriptor := (types.messages.get? owner.typeName).getD {}
    fields }

end Schema

end ApiModel
