import ApiModel.Naming
import ApiModel.ScalarValue
import ApiModel.Schema.Name
import ApiModel.Text.Digit

/-!
# Checking descriptor sets

What makes a descriptor set a schema: its files, names, field numbers and one-ofs fit together, and
every type name stands for a type that the file sees.  Resolving replaces each field's type by what it
stands for, and the types of methods and the extendees of extensions to full names.

`Schema.resolve` leaves options as they are.
-/

namespace ApiModel

namespace Schema

/-- Fails with an error unless a condition holds. -/
def ensure (holds : Bool) (e : SchemaError) : Except SchemaError Unit := if holds then .ok () else .error e

/-! ## Defaults -/

/-- Splits a sign off a number's text. -/
def unsigned : List Char → List Char
  | '-' :: rest => rest
  | '+' :: rest => rest
  | cs => cs

/-- The text is a whole number in a range; only a range with negative numbers takes a minus sign. -/
def isInteger (low high : Int) (cs : List Char) : Bool :=
  let digits := unsigned cs
  let size : Int := digits.foldl (fun n c => 10 * n + (c.toNat - 48)) 0
  let value := if cs.head? = some '-' then -size else size
  !digits.isEmpty && digits.all Char.isDigit && (cs.head? != some '-' || decide (low < 0)) &&
    decide (low ≤ value) && decide (value ≤ high)

/-- The text is a decimal number, an infinity or no number. -/
def isDecimal (cs : List Char) : Bool :=
  let body := unsigned cs
  let isExponent (e : List Char) : Bool := !(unsigned e).isEmpty && (unsigned e).all Char.isDigit
  let whole := body.takeWhile Char.isDigit
  let rest := body.dropWhile Char.isDigit
  let places := if rest.head? = some '.' then (rest.drop 1).takeWhile Char.isDigit else []
  let rest := if rest.head? = some '.' then (rest.drop 1).dropWhile Char.isDigit else rest
  let number := !(whole ++ places).isEmpty &&
    match rest with
    | [] => true
    | e :: exponent => e.toLower == 'e' && isExponent exponent
  number || [ "inf", "infinity", "nan"].any fun word => body.map Char.toLower == word.toList

/-- Two characters are a hexadecimal byte; a plus sign can stand for the first digit. -/
def isHexByte (high low : Char) : Bool := (high == '+' || Text.isDigit 16 high) && Text.isDigit 16 low

/-- A backslash and this character are an escape. -/
def isEscapeLetter (c : Char) : Bool :=
  ['a', 'b', 'f', 'n', 'r', 't', 'v', '\\', '?', '\'', '"'].contains c || ('0' ≤ c && c ≤ '7')

/-- The backslashes of a text of bytes begin escapes; a hexadecimal one is of two characters. -/
def isEscaped : List Char → Bool
  | [] => true
  | ['\\'] => false
  | '\\' :: c :: rest =>
    if c = 'x' ∨ c = 'X' then
      match rest with
      | high :: low :: rest => isHexByte high low && isEscaped rest
      | _ => false
    else isEscapeLetter c && isEscaped rest
  | _ :: rest => isEscaped rest

/-- A field of a type can have a text as its default. -/
def isDefault (enumValues : String → List String) (type : FieldType) (text : String) : Bool :=
  let cs := text.toList
  match type with
  | .message _ => false
  | .group _ => false
  | .enumeration name => (enumValues name).contains text
  | .scalar kind =>
    match kind with
    | .double | .float => isDecimal cs
    | .bool => text == "true" || text == "false"
    | .bytes => isEscaped cs
    | _ => kind.bounds?.all fun (low, high) => isInteger low high cs

/-! ## Types -/

/-- The scalar type with a number of the format; groups, messages and enumerations are none, and a
number that is not known counts as the first. -/
def scalar? (n : Int) : Option FieldKind :=
  if n = 10 ∨ n = 11 ∨ n = 14 then none
  else if 1 ≤ n ∧ n ≤ 18 then FieldKind.all[n.toNat]? else some .double

/-- What the type of a field stands for; a message declared as a group is one. -/
def resolveType (v : Visible) (element : String) (t : TypeName) : Except SchemaError FieldType :=
  if t.name.isEmpty then
    match scalar? (t.kind.getD 1) with
    | some kind => .ok (.scalar kind)
    | none => .error (.unresolvedType element "a nameless type")
  else
    match v.resolve? DefinitionKind.isType element t.name with
    | some (fullName, d) =>
      .ok (if d.kind = .enumeration then .enumeration fullName
        else if t.kind = some 10 then .group fullName else .message fullName)
    | none => .error (.unresolvedType element t.name)

/-- The full name of the message that a name stands for. -/
def resolveMessage (v : Visible) (element name : String) : Except SchemaError String :=
  match v.resolve? (· == .message) element name with
  | some (fullName, _) => .ok fullName
  | none => .error (.unresolvedType element name)

/-! ## Numbers -/

/-- A field can have its number: it is in range and not kept for other uses, and it is left to
extensions if and only if the field names a message to extend. -/
def isFieldNumber (m : MessageDescriptor TypeName) (f : FieldDescriptor TypeName) : Bool :=
  let n := f.number
  decide (1 ≤ n) && decide (n ≤ 536870911) && !(decide (19000 ≤ n) && decide (n ≤ 19999)) &&
    !m.reservedRanges.any (·.has n) && m.extensionRanges.any (·.has n) == f.extendee.isSome

/-! ## Resolving -/

/-- What resolving needs to know besides the visible names. -/
structure Context where
  visible : Visible
  dialect : Dialect
  /-- The names of an enumeration's values. -/
  enumValues : String → List String
  message? : String → Option (MessageDescriptor TypeName)

/-- Resolves the type of a field or extension and checks its default.  Only in the older dialect does
every single field track its presence. -/
def resolveField (c : Context) (scope : String) (f : FieldDescriptor TypeName) :
    Except SchemaError (FieldDescriptor FieldType) := do
  let element := qualifiedName scope f.name
  let type ← resolveType c.visible element f.type
  ensure (f.default.all (isDefault c.enumValues type)) (.wrongDefault element (f.default.getD ""))
  let tracksPresence := c.dialect == .proto2 || f.proto3Optional || f.oneofIndex.isSome ||
    type.messageName?.isSome
  return { f with type, tracksPresence }

/-- Resolves an extension; its message has to leave its number to extensions. -/
def resolveExtension (c : Context) (scope : String) (f : FieldDescriptor TypeName) :
    Except SchemaError (FieldDescriptor FieldType) := do
  let element := qualifiedName scope f.name
  let extendee ← resolveMessage c.visible element (f.extendee.getD "")
  ensure ((c.message? extendee).all (isFieldNumber · f)) (.wrongNumber element)
  return { ← resolveField c scope f with extendee := some extendee }

mutual

/-- Resolves the fields of a message and of the messages nested in it. -/
def resolveMessageType (c : Context) (scope : String) :
    MessageDescriptor TypeName → Except SchemaError (MessageDescriptor FieldType)
  | ⟨name, fields, extensions, nested, enums, extensionRanges, reservedRanges, oneofs, options⟩ => do
    let fullName := qualifiedName scope name
    return {
      name, enums, extensionRanges, reservedRanges, oneofs, options
      fields := ← fields.mapM (resolveField c fullName)
      extensions := ← extensions.mapM (resolveExtension c fullName)
      nested := ← resolveMessageTypes c fullName nested }

def resolveMessageTypes (c : Context) (scope : String) :
    List (MessageDescriptor TypeName) → Except SchemaError (List (MessageDescriptor FieldType))
  | [] => .ok []
  | m :: ms => do
    return (← resolveMessageType c scope m) :: (← resolveMessageTypes c scope ms)

end

def resolveMethod (c : Context) (scope : String) (m : MethodDescriptor) :
    Except SchemaError MethodDescriptor := do
  let element := qualifiedName scope m.name
  return { m with
    input := ← resolveMessage c.visible element m.input
    output := ← resolveMessage c.visible element m.output }

def resolveService (c : Context) (scope : String) (s : ServiceDescriptor) :
    Except SchemaError ServiceDescriptor := do
  return { s with methods := ← s.methods.mapM (resolveMethod c (qualifiedName scope s.name)) }

/-- Resolves the types of a file. -/
def resolveFile (c : Context) (f : FileDescriptor TypeName) :
    Except SchemaError (FileDescriptor FieldType) := do
  let messages ← resolveMessageTypes c f.package f.messages
  let extensions ← f.extensions.mapM (resolveExtension c f.package)
  let services ← f.services.mapM (resolveService c f.package)
  return {
    messages, extensions, services
    name := f.name, package := f.package, dependencies := f.dependencies
    publicDependencies := f.publicDependencies, weakDependencies := f.weakDependencies
    enums := f.enums, options := f.options, comments := f.comments, dialectName := f.dialectName }

/-! ## Shape -/

/-- The name without underscores and case. -/
def foldName (name : String) : List Char := Text.foldCase (name.toList.filter (· != '_'))

/-- No two elements of the list are equal. -/
def distinct {α : Type} [BEq α] (as : List α) : Bool := as.eraseDups.length == as.length

/-- Checks the fields of one message. -/
def checkMessage (dialect : Dialect) (fullName : String) (m : MessageDescriptor TypeName) :
    Except SchemaError Unit := do
  m.fields.forM fun f => do
    ensure (isFieldNumber m f) (.wrongNumber (qualifiedName fullName f.name))
    ensure (f.oneofIndex.all fun (i : Int) => decide (0 ≤ i) && decide (i < m.oneofs.length))
      (.wrongOneof (qualifiedName fullName f.name))
  ensure (distinct (m.fields.map (·.number))) (.duplicateNumber fullName)
  ensure (distinct (m.fields.map (·.json Naming.jsonName))) (.duplicateJsonName fullName)
  ensure (dialect == .proto2 || distinct (m.fields.map fun f => foldName f.name))
    (.similarNames fullName)

/-- Checks the values of an enumeration. -/
def checkEnum (dialect : Dialect) (scope : String) (e : EnumDescriptor) : Except SchemaError Unit := do
  let name := qualifiedName scope e.name
  ensure (!e.values.isEmpty) (.emptyEnum name)
  ensure (dialect == .proto2 || e.values.head?.all (·.number == 0)) (.firstValueNotZero name)
  ensure (e.allowsAlias || distinct (e.values.map (·.number))) (.duplicateValue name)
  ensure (e.values.all fun v => !e.reservedRanges.any (·.has v.number)) (.reservedValue name)

/-- The dialect that a file is written in. -/
def dialectOf (f : FileDescriptor TypeName) : Except SchemaError Dialect :=
  f.dialect?.elim (.error (.unknownDialect f.name (f.dialectName.getD ""))) .ok

/-- Checks what a file declares, apart from types and options. -/
def checkFile (files : List (FileDescriptor TypeName)) (f : FileDescriptor TypeName) :
    Except SchemaError Unit := do
  let dialect ← dialectOf f
  f.dependencies.forM fun name => ensure (files.any (·.name == name)) (.missingImport f.name name)
  ensure ((f.publicDependencies ++ f.weakDependencies).all fun k =>
    decide (0 ≤ k) && decide (k < f.dependencies.length)) (.wrongImportIndex f.name)
  f.allMessages.forM fun (name, m) => checkMessage dialect name m
  f.allEnums.forM fun (scope, e) => checkEnum dialect scope e

/-! ## Descriptor sets -/

/-- The value names of all enumerations by full name. -/
def valueNames {ρ : Type} (files : List (FileDescriptor ρ)) : IdMap (List String) :=
  IdMap.ofList (files.flatMap fun f =>
    f.allEnums.map fun (scope, e) => (qualifiedName scope e.name, e.values.map (·.name)))

/-- What the file at each place sees. -/
def visibleNames (files : List (FileDescriptor TypeName)) : Except SchemaError (List Visible) := do
  let names ← collectNames files
  return files.zipIdx.map fun (_, i) => ⟨names, visibleFiles files i⟩

/-- Resolves the files of a checked set; `visible` is what each of them sees. -/
def resolveFiles (files : List (FileDescriptor TypeName)) (visible : List Visible) :
    Except SchemaError (List (FileDescriptor FieldType)) :=
  let values := valueNames files
  let messages := IdMap.ofList (files.flatMap (·.allMessages))
  (files.zip visible).mapM fun (f, v) => do
    let dialect ← dialectOf f
    let enumValues (name : String) := (values.get? name).getD []
    resolveFile { visible := v, dialect, enumValues, message? := messages.get? } f

/-- Checks and resolves a descriptor set; each file is given with what it sees. -/
def resolve (files : List (FileDescriptor TypeName)) :
    Except SchemaError (List (FileDescriptor FieldType × Visible)) := do
  files.zipIdx.forM fun (f, i) =>
    ensure (fileIndex? files f.name == some i) (.duplicateFile f.name)
  files.forM (checkFile files)
  let visible ← visibleNames files
  return (← resolveFiles files visible).zip visible

end Schema

end ApiModel
