import ApiModel.MessageValue

/-!
# Reading descriptor sets

Each message of the format is read by a step that takes one field; fields that are not known are
skipped, and a known field in another form is an error.  Of a single value the last counts, entries of
a list are appended, and messages that are given twice are merged, which for options means that their
fields are joined.

Messages, and the groups among unknown fields, nest at most a hundred levels deep; a step is told how
many levels are left below its message.  An unknown field takes a level itself.
-/

namespace ApiModel

open ApiModel.Wire

namespace Reader

/-- A step takes one field, with so many levels left below; `none` is malformed input. -/
abbrev Step (α : Type) := (depth : Nat) → α → Wire.Field → Option α

/-- Reads a message by taking its fields in order. -/
def message {α : Type} (step : Step α) (blank : α) (depth : Nat) (s : Bytes) : Option α := do
  (← Wire.fields s).foldlM (step depth) blank

/-- Reads a message that is the value of a field, a level deeper. -/
def sub {α : Type} (step : Step α) (blank : α) (depth : Nat) (v : Value) : Option α :=
  match depth with
  | 0 => none
  | depth + 1 => do message step blank depth (← v.bytes?)

/-- Passes over an unknown field. -/
def skip {α : Type} : Step α := fun depth d f => if f.2.fits depth then some d else none

/-- Reads options after those there are; each field is passed over as an unknown one first, and then
has to be in its standard form. -/
def options (owner : OptionsOwner) (depth : Nat) (old : Options) (v : Value) : Option Options :=
  match depth with
  | 0 => none
  | depth + 1 => do
    let more ← Wire.fields (← v.bytes?)
    guard (more.all fun f => f.2.fits depth)
    guard (Schema.standard.admits Value.fits depth owner.typeName more)
    return old ++ more

/-! ## Elements -/

/-- A range of numbers that is given with the first number beyond it. -/
def range : Step NumberRange := fun depth r f =>
  match f.1 with
  | 1 => return { r with first := ← f.2.int32? }
  | 2 => return { r with beyond := ← f.2.int32? }
  | _ => skip depth r f

/-- A range of numbers that is given with its last number. -/
def closedRange : Step NumberRange := fun depth r f =>
  match f.1 with
  | 2 => return { r with beyond := (← f.2.int32?) + 1 }
  | _ => range depth r f

def extensionRange : Step ExtensionRange := fun depth r f =>
  match f.1 with
  | 3 => return { r with options := ← options .extensionRange depth r.options f.2 }
  | _ => return { r with toNumberRange := ← range depth r.toNumberRange f }

/-- The cardinality with a number; numbers that are not known count as optional. -/
def cardinality (n : Int) : Cardinality :=
  if n = 2 then .required else if n = 3 then .repeated else .optional

def field : Step (FieldDescriptor TypeName) := fun depth d f =>
  match f.1 with
  | 1 => return { d with name := ← f.2.text? }
  | 2 => return { d with extendee := some (← f.2.text?) }
  | 3 => return { d with number := ← f.2.int32? }
  | 4 => return { d with cardinality := cardinality (← f.2.int32?) }
  | 5 => return { d with type := { d.type with kind := some (← f.2.int32?) } }
  | 6 => return { d with type := { d.type with name := ← f.2.text? } }
  | 7 => return { d with default := some (← f.2.text?) }
  | 8 => return { d with options := ← options .field depth d.options f.2 }
  | 9 => return { d with oneofIndex := some (← f.2.int32?) }
  | 10 => return { d with jsonName := some (← f.2.text?) }
  | 17 => return { d with proto3Optional := ← f.2.bool? }
  | _ => skip depth d f

def enumValue : Step EnumValueDescriptor := fun depth d f =>
  match f.1 with
  | 1 => return { d with name := ← f.2.text? }
  | 2 => return { d with number := ← f.2.int32? }
  | 3 => return { d with options := ← options .enumValue depth d.options f.2 }
  | _ => skip depth d f

def enumeration : Step EnumDescriptor := fun depth d f =>
  match f.1 with
  | 1 => return { d with name := ← f.2.text? }
  | 2 => return { d with values := d.values ++ [← sub enumValue {} depth f.2] }
  | 3 => return { d with options := ← options .enumeration depth d.options f.2 }
  | 4 => do
    let range ← sub closedRange { beyond := 1 } depth f.2
    return { d with reservedRanges := d.reservedRanges ++ [range] }
  | 5 => f.2.text?.map fun _ => d
  | _ => skip depth d f

def oneof : Step OneofDescriptor := fun depth d f =>
  match f.1 with
  | 1 => return { d with name := ← f.2.text? }
  | 2 => return { d with options := ← options .oneof depth d.options f.2 }
  | _ => skip depth d f

/-- The fields of a message declaration other than the messages nested in it. -/
def messageMember : Step (MessageDescriptor TypeName) := fun depth d f =>
  match f.1 with
  | 1 => return { d with name := ← f.2.text? }
  | 2 => return { d with fields := d.fields ++ [← sub field { type := {} } depth f.2] }
  | 4 => return { d with enums := d.enums ++ [← sub enumeration {} depth f.2] }
  | 5 => do
    let range ← sub extensionRange {} depth f.2
    return { d with extensionRanges := d.extensionRanges ++ [range] }
  | 6 => return { d with extensions := d.extensions ++ [← sub field { type := {} } depth f.2] }
  | 7 => return { d with options := ← options .message depth d.options f.2 }
  | 8 => return { d with oneofs := d.oneofs ++ [← sub oneof {} depth f.2] }
  | 9 => return { d with reservedRanges := d.reservedRanges ++ [← sub range {} depth f.2] }
  | 10 => f.2.text?.map fun _ => d
  | _ => skip depth d f

/-- A message declaration. -/
def messageType : Step (MessageDescriptor TypeName)
  | 0, d, f => if f.1 = 3 then none else messageMember 0 d f
  | depth + 1, d, f =>
    if f.1 = 3 then do
      let nested ← (← Wire.fields (← f.2.bytes?)).foldlM (messageType depth) {}
      return { d with nested := d.nested ++ [nested] }
    else messageMember (depth + 1) d f

def method : Step MethodDescriptor := fun depth d f =>
  match f.1 with
  | 1 => return { d with name := ← f.2.text? }
  | 2 => return { d with input := ← f.2.text? }
  | 3 => return { d with output := ← f.2.text? }
  | 4 => return { d with options := ← options .method depth d.options f.2 }
  | 5 => return { d with clientStreaming := ← f.2.bool? }
  | 6 => return { d with serverStreaming := ← f.2.bool? }
  | _ => skip depth d f

def service : Step ServiceDescriptor := fun depth d f =>
  match f.1 with
  | 1 => return { d with name := ← f.2.text? }
  | 2 => return { d with methods := d.methods ++ [← sub method {} depth f.2] }
  | 3 => return { d with options := ← options .service depth d.options f.2 }
  | _ => skip depth d f

/-! ## Comments -/

def location : Step CommentLocation := fun depth d f =>
  match f.1 with
  | 1 => return { d with path := d.path ++ (← f.2.int32s?) }
  | 2 => f.2.int32s?.map fun _ => d
  | 3 => return { d with leading := some (← f.2.text?) }
  | 4 => f.2.text?.map fun _ => d
  | 6 => f.2.text?.map fun _ => d
  | _ => skip depth d f

def comments : Step (List CommentLocation) := fun depth ds f =>
  match f.1 with
  | 1 => return ds ++ [← sub location {} depth f.2]
  | _ => skip depth ds f

/-! ## Files -/

def file : Step (FileDescriptor TypeName) := fun depth d f =>
  match f.1 with
  | 1 => return { d with name := ← f.2.text? }
  | 2 => return { d with package := ← f.2.text? }
  | 3 => return { d with dependencies := d.dependencies ++ [← f.2.text?] }
  | 4 => return { d with messages := d.messages ++ [← sub messageType {} depth f.2] }
  | 5 => return { d with enums := d.enums ++ [← sub enumeration {} depth f.2] }
  | 6 => return { d with services := d.services ++ [← sub service {} depth f.2] }
  | 7 => return { d with extensions := d.extensions ++ [← sub field { type := {} } depth f.2] }
  | 8 => return { d with options := ← options .file depth d.options f.2 }
  | 9 => return { d with comments := ← sub comments d.comments depth f.2 }
  | 10 => return { d with publicDependencies := d.publicDependencies ++ (← f.2.int32s?) }
  | 11 => return { d with weakDependencies := d.weakDependencies ++ (← f.2.int32s?) }
  | 12 => return { d with dialectName := some (← f.2.text?) }
  | _ => skip depth d f

def fileSet : Step (List (FileDescriptor TypeName)) := fun depth ds f =>
  match f.1 with
  | 1 => return ds ++ [← sub file {} depth f.2]
  | _ => skip depth ds f

/-- How many levels there are below a descriptor set. -/
def maxDepth : Nat := 100

end Reader

/-- Reads a descriptor set. -/
def readDescriptorSet (s : Bytes) : Option (List (FileDescriptor TypeName)) :=
  Reader.message Reader.fileSet [] Reader.maxDepth s

end ApiModel
