import ApiModel.Descriptor.Basic
import ApiModel.IdMap
import ApiModel.Model.Message
import ApiModel.Text.Piece

/-!
# Schemas

A schema is a checked descriptor set: every type name is resolved.  Full names have no leading dot.
-/

namespace ApiModel

/-- What the type of a field stands for; messages and enumerations by full name. -/
inductive FieldType where
  | scalar (kind : FieldKind)
  | message (fullName : String)
  /-- A message whose fields stand between two marks. -/
  | group (fullName : String)
  | enumeration (fullName : String)
  deriving DecidableEq

/-- The full name of the message that the type stands for. -/
def FieldType.messageName? : FieldType → Option String
  | .message fullName => some fullName
  | .group fullName => some fullName
  | _ => none

/-- A name inside a scope; the outermost scope has no name. -/
def qualifiedName (scope name : String) : String :=
  if scope.isEmpty then name else scope ++ "." ++ name

/-- A checked descriptor set, with its messages, enumerations and extensions by full name. -/
structure Schema where
  files : List (FileDescriptor FieldType) := []
  messages : IdMap (MessageDescriptor FieldType) := ∅
  enums : IdMap EnumDescriptor := ∅
  extensions : IdMap (FieldDescriptor FieldType) := ∅
  /-- The extensions in the order in which they are looked for by number. -/
  extensionOrder : List (FieldDescriptor FieldType) := []

namespace FieldDescriptor

variable {ρ : Type}

/-- The JSON name, derived from the name if it is not given. -/
def json (derive : String → String) (f : FieldDescriptor ρ) : String := f.jsonName.getD (derive f.name)

def isRepeated (f : FieldDescriptor ρ) : Bool := f.cardinality == .repeated

end FieldDescriptor

namespace MessageDescriptor

variable {ρ : Type}

/-- The fields of a one-of, by its place. -/
def oneofMembers (m : MessageDescriptor ρ) (index : Nat) : List (FieldDescriptor ρ) :=
  m.fields.filter fun f => f.oneofIndex == some (index : Int)

/-- A one-of that only marks one optional field. -/
def isSynthetic (m : MessageDescriptor ρ) (index : Nat) : Bool :=
  match m.oneofMembers index with
  | [f] => f.proto3Optional
  | _ => false

end MessageDescriptor

mutual

/-- A message and the messages nested in it, each with its full name. -/
def MessageDescriptor.withNested {ρ : Type} (scope : String) :
    MessageDescriptor ρ → List (String × MessageDescriptor ρ)
  | m@⟨name, _, _, nested, _, _, _, _, _⟩ =>
    (qualifiedName scope name, m) :: MessageDescriptor.allNested (qualifiedName scope name) nested

/-- The messages of a scope and the messages nested in them, each with its full name. -/
def MessageDescriptor.allNested {ρ : Type} (scope : String) :
    List (MessageDescriptor ρ) → List (String × MessageDescriptor ρ)
  | [] => []
  | m :: ms => MessageDescriptor.withNested scope m ++ MessageDescriptor.allNested scope ms

end

mutual

/-- The extensions that a message declares, those of its nested messages first, each with the name of
its scope. -/
def MessageDescriptor.scopedExtensions {ρ : Type} (scope : String) :
    MessageDescriptor ρ → List (String × FieldDescriptor ρ)
  | ⟨name, _, extensions, nested, _, _, _, _, _⟩ =>
    MessageDescriptor.nestedExtensions (qualifiedName scope name) nested ++
      extensions.map (qualifiedName scope name, ·)

/-- The extensions that the messages of a scope declare. -/
def MessageDescriptor.nestedExtensions {ρ : Type} (scope : String) :
    List (MessageDescriptor ρ) → List (String × FieldDescriptor ρ)
  | [] => []
  | m :: ms =>
    MessageDescriptor.scopedExtensions scope m ++ MessageDescriptor.nestedExtensions scope ms

end

namespace FileDescriptor

variable {ρ : Type}

/-- All messages of a file with their full names. -/
def allMessages (f : FileDescriptor ρ) : List (String × MessageDescriptor ρ) :=
  MessageDescriptor.allNested f.package f.messages

/-- All enumerations of a file with the names of their scopes. -/
def allEnums (f : FileDescriptor ρ) : List (String × EnumDescriptor) :=
  f.enums.map (f.package, ·) ++ f.allMessages.flatMap fun (name, m) => m.enums.map (name, ·)

/-- All extensions of a file with the names of their scopes, those of messages first. -/
def allExtensions (f : FileDescriptor ρ) : List (String × FieldDescriptor ρ) :=
  MessageDescriptor.nestedExtensions f.package f.messages ++ f.extensions.map (f.package, ·)

/-- The dialect of a file, if it is known; without a word it is the older one. -/
def dialect? (f : FileDescriptor ρ) : Option Dialect :=
  match f.dialectName with
  | none => some .proto2
  | some "proto2" => some .proto2
  | some "proto3" => some .proto3
  | some _ => none

end FileDescriptor

/-- The schema of resolved files. -/
def Schema.ofResolved (files : List (FileDescriptor FieldType)) : Schema :=
  { files
    messages := IdMap.ofList (files.flatMap (·.allMessages))
    enums := IdMap.ofList (files.flatMap fun f =>
      f.allEnums.map fun (scope, e) => (qualifiedName scope e.name, e))
    extensions := IdMap.ofList (files.flatMap fun f =>
      f.allExtensions.map fun (scope, e) => (qualifiedName scope e.name, e))
    extensionOrder := files.flatMap fun f => f.allExtensions.map (·.2) }

/-- Why a descriptor set is no schema. -/
inductive SchemaError where
  | unknownDialect (file name : String)
  | missingImport (file name : String)
  | wrongImportIndex (file : String)
  | duplicateFile (file : String)
  | duplicateName (name : String)
  | wrongNumber (field : String)
  | duplicateNumber (message : String)
  | duplicateJsonName (message : String)
  | similarNames (message : String)
  | wrongOneof (field : String)
  | emptyEnum (name : String)
  | firstValueNotZero (name : String)
  | duplicateValue (name : String)
  | reservedValue (name : String)
  | unresolvedType (element name : String)
  | wrongDefault (field text : String)
  | malformedOptions (element : String)
  | unknownOption (element name : String)
  | repeatedOption (element name : String)
  | wrongOptionValue (element name : String)
  deriving DecidableEq

def SchemaError.message : SchemaError → String
  | .unknownDialect file name => s!"file {file} is written in the unknown dialect {name}"
  | .missingImport file name => s!"file {file} imports {name}, which is not in the set"
  | .wrongImportIndex file => s!"file {file} marks an import that it does not have"
  | .duplicateFile file => s!"file {file} is in the set twice"
  | .duplicateName name => s!"{name} is declared twice"
  | .wrongNumber field => s!"{field} has a number that it cannot have"
  | .duplicateNumber message => s!"two fields of {message} have one number"
  | .duplicateJsonName message => s!"two fields of {message} have one JSON name"
  | .similarNames message => s!"two fields of {message} differ only in case and underscores"
  | .wrongOneof field => s!"{field} belongs to a oneof that its message does not have"
  | .emptyEnum name => s!"enum {name} has no values"
  | .firstValueNotZero name => s!"the first value of enum {name} is not zero"
  | .duplicateValue name => s!"two values of enum {name} have one number"
  | .reservedValue name => s!"a value of enum {name} has a reserved number"
  | .unresolvedType element name => s!"{element} refers to {name}, which is no type it can see"
  | .wrongDefault field text => s!"{field} cannot have the default {text}"
  | .malformedOptions element => s!"the options of {element} do not have the forms of their types"
  | .unknownOption element name => s!"{element} sets {name}, which is no option of it"
  | .repeatedOption element name => s!"{element} sets {name} twice"
  | .wrongOptionValue element name => s!"{element} sets {name} to a value that it cannot have"

end ApiModel
