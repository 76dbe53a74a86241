import ApiModel.MessageValue
import ApiModel.ScalarValue
import ApiModel.Schema.Check

/-!
# Options by name

An uninterpreted option is a name and a value as they were written.  The parts of the name lead from
the options of an element into the messages in them: a part is the name of a field, or the name of an
extension as the element sees it.  The last part is the field that is set; a single field can be set
only once.  A message that is written as a whole is set, but the text of its fields is not read.

`Schema.ofFiles` checks that the options of every element are in the forms of their types and sets what
uninterpreted options say, which makes a descriptor set a schema.
-/

namespace ApiModel

open ApiModel.Wire

/-! ## Written options -/

/-- A part of the name of an option. -/
structure OptionNamePart where
  name : String
  /-- The part names an extension and no field. -/
  isExtension : Bool

/-- An option as it was written: a name, and a word, a whole number, a decimal number, a text or a
message. -/
structure WrittenOption where
  parts : List OptionNamePart
  word : Option String := none
  positive : Option Nat := none
  negative : Option Int := none
  /-- The eight bytes of a decimal number. -/
  decimal : Option Bytes := none
  text : Option Bytes := none
  /-- The value is written as a whole message. -/
  isMessage : Bool := false

namespace WrittenOption

/-- The written option that an uninterpreted option holds. -/
def ofValue (v : MessageValue) : WrittenOption :=
  let last? (name : String) := (v.named? name).bind v.last?
  { parts := ((v.named? "name").elim [] v.messages).map fun part =>
      { name := part.textNamed "name_part", isExtension := part.flagNamed "is_extension" }
    word := (last? "identifier_value").bind (·.text?)
    positive := (last? "positive_int_value").bind (·.number?)
    negative := ((last? "negative_int_value").bind (·.number?)).map toInt64
    decimal := (last? "double_value").bind (·.fixed64?)
    text := (last? "string_value").bind (·.bytes?)
    isMessage := (last? "aggregate_value").isSome }

/-- The written options among the options of an element. -/
def all (owner : OptionsOwner) (options : Options) : List WrittenOption :=
  match MessageValue.ofType? Schema.standard owner.typeName options with
  | some v => ((v.named? "uninterpreted_option").elim [] v.messages).map ofValue
  | none => []

/-- The name of the option. -/
def name (o : WrittenOption) : String := ".".intercalate (o.parts.map (·.name))

/-! ## Values -/

/-- The whole number of an option. -/
def integer? (o : WrittenOption) : Option Int :=
  (o.positive.map fun (n : Nat) => (n : Int)) <|> o.negative

/-- The eight bytes of a number, lowest first, as its bits. -/
def bits (bytes : Bytes) : UInt64 := UInt64.ofNat (bytes.foldr (fun b n => b.toNat + 256 * n) 0)

/-- The number of an option with decimal places; words say what digits cannot. -/
def float? (o : WrittenOption) : Option Float :=
  (o.decimal.map fun bytes => .ofBits (bits bytes)) <|> o.integer?.map .ofInt <|>
    match o.word with
    | some "inf" => some (.ofBits 0x7ff0000000000000)
    | some "nan" => some (.ofBits 0x7ff8000000000000)
    | _ => none

def bool? (o : WrittenOption) : Option Bool :=
  match o.word with
  | some "true" => some true
  | some "false" => some false
  | _ => none

/-- The value that an option gives a single field of a type; a message written as a whole is empty. -/
def value? (o : WrittenOption) (schema : Schema) : FieldType → Option Value
  | .message _ | .group _ => if o.isMessage then some (.group []) else none
  | .enumeration fullName => do
    return .varint (ofInt64 (← (← schema.enums.get? fullName).number? (← o.word)))
  | .scalar kind =>
    match kind with
    | .bool => o.bool?.map fun b => .varint b.toNat
    | .string | .bytes => o.text.bind kind.ofBytes?
    | .double | .float => o.float?.bind kind.ofFloat?
    | _ => o.integer?.bind kind.ofInteger?

end WrittenOption

/-! ## Setting fields -/

namespace MessageValue

/-- The slot that a part of an option's name stands for; `find?` finds the full name of an
extension. -/
def partSlot? (find? : String → Option String) (v : MessageValue) (p : OptionNamePart) :
    Option Slot :=
  if p.isExtension then (find? p.name).bind v.extensionNamed? else v.named? p.name

/-- The field that sets what the parts of a name lead to.  What is set inside a message is written as a
group, which merges with the entries of the message that are there. -/
def set (find? : String → Option String) (element : String) (o : WrittenOption) :
    List OptionNamePart → MessageValue → Except SchemaError Wire.Field
  | [], _ => .error (.unknownOption element o.name)
  | p :: rest, v => do
    let slot ← (v.partSlot? find? p).elim (.error (.unknownOption element o.name)) .ok
    let number := slot.field.number.toNat
    if rest.isEmpty then
      Schema.ensure (slot.field.isRepeated || !v.isSet slot) (.repeatedOption element o.name)
      let value ← (o.value? v.schema slot.field.type).elim
        (.error (.wrongOptionValue element o.name)) .ok
      return (number, value)
    else
      let inner ← (v.message? slot).elim (.error (.wrongOptionValue element o.name)) .ok
      return (number, .group [← set find? element o rest inner])

end MessageValue

/-! ## All options -/

/-- What options are checked with: the schema without uninterpreted options, and what a file sees. -/
structure OptionContext where
  schema : Schema
  visible : Visible

namespace OptionContext

/-- How deep the messages and groups in options nest at most. -/
def maxDepth : Nat := 100

/-- The options of an element, with what the uninterpreted ones say. -/
def interpret (c : OptionContext) (owner : OptionsOwner) (element : String) (options : Options) :
    Except SchemaError Options := do
  let types := c.schema.optionTypes owner
  Schema.ensure (types.admits Value.groupsFit maxDepth owner.typeName options)
    (.malformedOptions element)
  let find? (name : String) := (c.visible.resolve? (· == .extension) element name).map (·.1)
  (WrittenOption.all owner options).foldlM
    (fun options o => do
      return options ++ [← (c.schema.options owner options).set find? element o o.parts]) options

def interpretField (c : OptionContext) (scope : String) (f : FieldDescriptor FieldType) :
    Except SchemaError (FieldDescriptor FieldType) := do
  return { f with options := ← c.interpret .field (qualifiedName scope f.name) f.options }

def interpretOneof (c : OptionContext) (scope : String) (o : OneofDescriptor) :
    Except SchemaError OneofDescriptor := do
  return { o with options := ← c.interpret .oneof (qualifiedName scope o.name) o.options }

def interpretRange (c : OptionContext) (scope : String) (r : ExtensionRange) :
    Except SchemaError ExtensionRange := do
  return { r with options := ← c.interpret .extensionRange scope r.options }

def interpretEnumValue (c : OptionContext) (scope : String) (v : EnumValueDescriptor) :
    Except SchemaError EnumValueDescriptor := do
  return { v with options := ← c.interpret .enumValue (qualifiedName scope v.name) v.options }

def interpretEnum (c : OptionContext) (scope : String) (e : EnumDescriptor) :
    Except SchemaError EnumDescriptor := do
  return { e with
    values := ← e.values.mapM (c.interpretEnumValue scope)
    options := ← c.interpret .enumeration (qualifiedName scope e.name) e.options }

mutual

/-- Interprets the options of a message and of what it declares. -/
def interpretMessage (c : OptionContext) (scope : String) :
    MessageDescriptor FieldType → Except SchemaError (MessageDescriptor FieldType)
  | ⟨name, fields, extensions, nested, enums, extensionRanges, reservedRanges, oneofs, options⟩ => do
    let fullName := qualifiedName scope name
    return {
      name, reservedRanges
      fields := ← fields.mapM (c.interpretField fullName)
      extensions := ← extensions.mapM (c.interpretField fullName)
      nested := ← interpretMessages c fullName nested
      enums := ← enums.mapM (c.interpretEnum fullName)
      extensionRanges := ← extensionRanges.mapM (c.interpretRange fullName)
      oneofs := ← oneofs.mapM (c.interpretOneof fullName)
      options := ← c.interpret .message fullName options }

/-- Interprets the options of the messages of a scope. -/
def interpretMessages (c : OptionContext) (scope : String) :
    List (MessageDescriptor FieldType) → Except SchemaError (List (MessageDescriptor FieldType))
  | [] => .ok []
  | m :: ms => do
    return (← interpretMessage c scope m) :: (← interpretMessages c scope ms)

end

def interpretMethod (c : OptionContext) (scope : String) (m : MethodDescriptor) :
    Except SchemaError MethodDescriptor := do
  return { m with options := ← c.interpret .method (qualifiedName scope m.name) m.options }

def interpretService (c : OptionContext) (scope : String) (s : ServiceDescriptor) :
    Except SchemaError ServiceDescriptor := do
  let fullName := qualifiedName scope s.name
  return { s with
    methods := ← s.methods.mapM (c.interpretMethod fullName)
    options := ← c.interpret .service fullName s.options }

/-- Interprets the options of a file and of what it declares. -/
def interpretFile (c : OptionContext) (f : FileDescriptor FieldType) :
    Except SchemaError (FileDescriptor FieldType) := do
  return { f with
    messages := ← interpretMessages c f.package f.messages
    enums := ← f.enums.mapM (c.interpretEnum f.package)
    services := ← f.services.mapM (c.interpretService f.package)
    extensions := ← f.extensions.mapM (c.interpretField f.package)
    options := ← c.interpret .file f.package f.options }

end OptionContext

/-- Checks a descriptor set and makes it a schema. -/
def Schema.ofFiles (files : List (FileDescriptor TypeName)) : Except SchemaError Schema := do
  let resolved ← resolve files
  let schema := ofResolved (resolved.map (·.1))
  return ofResolved (← resolved.mapM fun (f, visible) =>
    OptionContext.interpretFile { schema, visible } f)

end ApiModel
