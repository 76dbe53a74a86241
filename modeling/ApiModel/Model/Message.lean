import ApiModel.Model.Resource

/-!
# Messages and enumerations

Elements are identified by dotted IDs such as `.google.cloud.secretmanager.v1.Secret`.  Containment is
kept as ordered lists of IDs, and what an element refers to is kept as the ID of the target.  The
members called `links` and their kin hold references that cross-referencing has resolved.
-/

namespace ApiModel

/-! ## Identifiers -/

/-- The ID of an element inside a scope that has an ID itself. -/
def memberId (scope name : String) : String := scope ++ "." ++ name

/-- The ID of an element of a package; without a package the ID is the name behind a dot. -/
def packageId (package name : String) : String :=
  if package.isEmpty then "." ++ name else "." ++ package ++ "." ++ name

/-- The message that stands for nothing. -/
def emptyMessageId : String := ".google.protobuf.Empty"

/-- The message that names the fields of an update. -/
def fieldMaskId : String := ".google.protobuf.FieldMask"

/-- The wrappers of the two integer types that a page size may have. -/
def integerWrapperIds : List String := [".google.protobuf.Int32Value", ".google.protobuf.UInt32Value"]

/-! ## Fields -/

/-- The type of a field's values. -/
inductive FieldKind where
  | undefined | double | float | int64 | uint64 | int32 | fixed64 | fixed32 | bool | string | group
  | message | bytes | uint32 | enumeration | sfixed32 | sfixed64 | sint32 | sint64
  deriving DecidableEq

namespace FieldKind

/-- The word for the kind, in lower case. -/
def word : FieldKind → String
  | .undefined => "undefined"
  | .double => "double"
  | .float => "float"
  | .int64 => "int64"
  | .uint64 => "uint64"
  | .int32 => "int32"
  | .fixed64 => "fixed64"
  | .fixed32 => "fixed32"
  | .bool => "bool"
  | .string => "string"
  | .group => "group"
  | .message => "message"
  | .bytes => "bytes"
  | .uint32 => "uint32"
  | .enumeration => "enum"
  | .sfixed32 => "sfixed32"
  | .sfixed64 => "sfixed64"
  | .sint32 => "sint32"
  | .sint64 => "sint64"

def all : List FieldKind :=
  [.undefined, .double, .float, .int64, .uint64, .int32, .fixed64, .fixed32, .bool, .string, .group,
    .message, .bytes, .uint32, .enumeration, .sfixed32, .sfixed64, .sint32, .sint64]

end FieldKind

/-- What an API promises about a field. -/
inductive FieldBehavior where
  | optional | required | outputOnly | inputOnly | immutable | unorderedList | nonEmptyDefault
  | identifier
  deriving DecidableEq

namespace FieldBehavior

def name : FieldBehavior → String
  | .optional => "OPTIONAL"
  | .required => "REQUIRED"
  | .outputOnly => "OUTPUT_ONLY"
  | .inputOnly => "INPUT_ONLY"
  | .immutable => "IMMUTABLE"
  | .unorderedList => "UNORDERED_LIST"
  | .nonEmptyDefault => "NON_EMPTY_DEFAULT"
  | .identifier => "IDENTIFIER"

/-- The behaviours in the order of their numbers, which start at one. -/
def all : List FieldBehavior :=
  [.optional, .required, .outputOnly, .inputOnly, .immutable, .unorderedList, .nonEmptyDefault,
    .identifier]

/-- The behaviour with a number of the annotation. -/
def ofNumber? (n : Int) : Option FieldBehavior :=
  if 1 ≤ n then all[(n - 1).toNat]? else none

end FieldBehavior

/-- What cross-referencing resolved for a field. -/
structure FieldLinks where
  /-- The message that holds the field. -/
  parent : Option String := none
  messageType : Option String := none
  enumType : Option String := none
  /-- The one-of that the field belongs to. -/
  group : Option String := none
  deriving DecidableEq

/-- A field of a message. -/
structure Field where
  name : String
  jsonName : String
  id : String := ""
  documentation : String := ""
  kind : FieldKind := .undefined
  /-- The ID of the field's message or enumeration. -/
  typeId : String := ""
  repeated : Bool := false
  isMap : Bool := false
  optional : Bool := false
  deprecated : Bool := false
  behavior : List FieldBehavior := []
  resourceReference : Option ResourceReference := none
  /-- The field's type contains, directly or not, the message that holds the field. -/
  recursive : Bool := false
  links : FieldLinks := {}
  deriving DecidableEq

namespace Field

/-- The field holds a message. -/
def isMessage (f : Field) : Bool := f.kind == .message

def isString (f : Field) : Bool := f.kind == .string

end Field

/-- Fields of which at most one is set. -/
structure OneOf where
  name : String
  id : String
  documentation : String := ""
  /-- The IDs of the member fields. -/
  fields : List String := []
  /-- The member that samples show. -/
  exampleField : Option String := none
  deriving DecidableEq

/-! ## Messages -/

/-- The names of the fields that page through a response. -/
structure PaginationInfo where
  nextPageToken : String
  pageableItem : String
  deriving DecidableEq

/-- A message type. -/
structure Message where
  name : String
  id : String
  package : String
  documentation : String := ""
  deprecated : Bool := false
  /-- All fields, members of one-ofs included. -/
  fields : List Field := []
  /-- The IDs of the nested messages. -/
  messages : List String := []
  /-- The IDs of the nested enumerations. -/
  enums : List String := []
  oneOfs : List OneOf := []
  /-- The ID of the enclosing message. -/
  parent : Option String := none
  resource : Option Resource := none
  /-- Set on the responses of paginated methods. -/
  pagination : Option PaginationInfo := none
  /-- The message stands for the entries of a map field. -/
  isMap : Bool := false
  deriving DecidableEq

namespace Message

/-- The ID of a new type: inside its parent if it has one, else in its package. -/
def idIn (parent : Option Message) (package name : String) : String :=
  match parent with
  | some p => memberId p.id name
  | none => packageId package name

/-- A message without content. -/
def new (name package : String) (parent : Option Message) : Message :=
  { name, package, id := idIn parent package name, parent := parent.map (·.id) }

/-- Appends a field; without an ID it gets one inside the message. -/
def addField (m : Message) (f : Field) : Message :=
  let f := if f.id.isEmpty then { f with id := memberId m.id f.name } else f
  { m with fields := m.fields ++ [f] }

/-- The first field with a name. -/
def field? (m : Message) (name : String) : Option Field := m.fields.find? (·.name == name)

/-- Changes the first field with a name. -/
def modifyField (m : Message) (name : String) (f : Field → Field) : Message :=
  match m.fields.findIdx? (·.name == name) with
  | some i => { m with fields := m.fields.modify i f }
  | none => m

end Message

/-! ## Enumerations -/

/-- A value of an enumeration. -/
structure EnumValue where
  name : String
  id : String
  documentation : String := ""
  number : Int
  deprecated : Bool := false
  /-- The enumeration, once cross-referenced. -/
  parent : Option String := none
  deriving DecidableEq

/-- An enumeration type. -/
structure Enumeration where
  name : String
  id : String
  package : String
  documentation : String := ""
  deprecated : Bool := false
  values : List EnumValue := []
  /-- The name of the first value with each number. -/
  uniqueNumberValues : List String := []
  /-- The names of the values that samples show. -/
  valuesForExamples : List String := []
  /-- The ID of the enclosing message. -/
  parent : Option String := none
  deriving DecidableEq

namespace Enumeration

/-- An enumeration without values. -/
def new (name package : String) (parent : Option Message) : Enumeration :=
  { name, package, id := Message.idIn parent package name, parent := parent.map (·.id) }

/-- Appends a value. -/
def addValue (e : Enumeration) (name : String) (number : Int) : Enumeration :=
  { e with values := e.values ++ [{ name, number, id := memberId e.id name }] }

end Enumeration

end ApiModel
