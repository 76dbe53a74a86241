import ApiModel.Wire

/-!
# Descriptors

The files of a descriptor set: messages, enumerations, services and extensions as their authors
declared them.  A descriptor refers to a type in a form `ρ`: first by the name that was written
(`TypeName`), then, in a checked schema, by what the name stands for.

Options stay fields of the wire format, since extensions decide what they say; only the few that the
format itself gives a meaning are read.
-/

namespace ApiModel

open ApiModel.Wire

/-- A type as it was written: a declared kind and a name, each of which may be missing. -/
structure TypeName where
  kind : Option Int := none
  name : String := ""
  deriving DecidableEq

/-- The options of an element; no options are the same as empty ones. -/
abbrev Options := List Wire.Field

/-- A flag among options: the last entry with a number. -/
def Options.flag (options : Options) (number : Nat) : Bool :=
  (options.filter (·.1 == number)).getLast?.any fun f => f.2.bool? == some true

/-- How many values a field has. -/
inductive Cardinality where
  | optional | required | repeated
  deriving DecidableEq

/-- A half-open range of numbers. -/
structure NumberRange where
  first : Int := 0
  beyond : Int := 0
  deriving DecidableEq

def NumberRange.has (r : NumberRange) (n : Int) : Bool := decide (r.first ≤ n) && decide (n < r.beyond)

/-- A field of a message, or an extension. -/
structure FieldDescriptor (ρ : Type) where
  name : String := ""
  number : Int := 0
  cardinality : Cardinality := .optional
  type : ρ
  /-- The message that an extension extends; a field of a message should have none. -/
  extendee : Option String := none
  default : Option String := none
  oneofIndex : Option Int := none
  jsonName : Option String := none
  options : Options := []
  /-- The field was declared optional where fields are optional by default. -/
  proto3Optional : Bool := false
  /-- An entry counts as set even if it holds what an unset field holds. -/
  tracksPresence : Bool := true

structure EnumValueDescriptor where
  name : String := ""
  number : Int := 0
  options : Options := []

structure EnumDescriptor where
  name : String := ""
  values : List EnumValueDescriptor := []
  reservedRanges : List NumberRange := []
  options : Options := []

/-- Two values may have one number. -/
def EnumDescriptor.allowsAlias (e : EnumDescriptor) : Bool := e.options.flag 2

/-- Numbers of a message that are left to extensions. -/
structure ExtensionRange extends NumberRange where
  options : Options := []

structure OneofDescriptor where
  name : String := ""
  options : Options := []

structure MessageDescriptor (ρ : Type) where
  name : String := ""
  fields : List (FieldDescriptor ρ) := []
  extensions : List (FieldDescriptor ρ) := []
  nested : List (MessageDescriptor ρ) := []
  enums : List EnumDescriptor := []
  extensionRanges : List ExtensionRange := []
  reservedRanges : List NumberRange := []
  oneofs : List OneofDescriptor := []
  options : Options := []

/-- The message stands for the entries of a map field. -/
def MessageDescriptor.isMapEntry {ρ : Type} (m : MessageDescriptor ρ) : Bool := m.options.flag 7

structure MethodDescriptor where
  name : String := ""
  input : String := ""
  output : String := ""
  options : Options := []
  clientStreaming : Bool := false
  serverStreaming : Bool := false

structure ServiceDescriptor where
  name : String := ""
  methods : List MethodDescriptor := []
  options : Options := []

/-- The comment before the element at a path of field numbers and indices. -/
structure CommentLocation where
  path : List Int := []
  leading : Option String := none

/-- The dialect of a file. -/
inductive Dialect where
  | proto2 | proto3
  deriving DecidableEq

structure FileDescriptor (ρ : Type) where
  name : String := ""
  package : String := ""
  dependencies : List String := []
  /-- The places of the dependencies that importers see as well. -/
  publicDependencies : List Int := []
  /-- The places of the dependencies that may be missing at run time. -/
  weakDependencies : List Int := []
  messages : List (MessageDescriptor ρ) := []
  enums : List EnumDescriptor := []
  services : List ServiceDescriptor := []
  extensions : List (FieldDescriptor ρ) := []
  options : Options := []
  comments : List CommentLocation := []
  dialectName : Option String := none

end ApiModel
