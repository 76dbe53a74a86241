import ApiModel.MessageValue
import ApiModel.Model.Service
import ApiModel.PathTemplate.Parser

/-!
# Options that describe an API

What the options of an element say about an API: HTTP rules, hosts, resources, field behaviour and
long-running operations.  Each is an extension of the options; in a schema that does not declare the
extension it says nothing, and neither does an option of another type than it should have.
-/

namespace ApiModel

/-- An option that describes an API. -/
inductive ApiOption where
  | httpRule | defaultHost | resource | resourceDefinition | resourceReference | fieldBehavior
  | operationInfo
  deriving DecidableEq

namespace ApiOption

/-- The full name of the option's extension. -/
def fullName : ApiOption → String
  | .httpRule => "google.api.http"
  | .defaultHost => "google.api.default_host"
  | .resource => "google.api.resource"
  | .resourceDefinition => "google.api.resource_definition"
  | .resourceReference => "google.api.resource_reference"
  | .fieldBehavior => "google.api.field_behavior"
  | .operationInfo => "google.longrunning.operation_info"

/-- The slot of an option that is present. -/
def slot? (a : ApiOption) (options : MessageValue) : Option MessageValue.Slot :=
  (options.extension? a.fullName).filter fun slot => !(options.entries slot).isEmpty

/-- The message that an option holds. -/
def message? (a : ApiOption) (options : MessageValue) : Option MessageValue :=
  (a.slot? options).bind options.message?

end ApiOption

/-- A resource descriptor; without a type it describes nothing, and patterns that cannot be read are
left out. -/
def Resource.ofDescriptor? (d : MessageValue) : Option Resource :=
  let kind := d.textNamed "type"
  if kind.isEmpty then none
  else some {
    kind
    patterns := ((d.named? "pattern").elim [] d.texts).filterMap fun s =>
      (PathTemplate.parsePattern s).toOption
    plural := d.textNamed "plural"
    singular := d.textNamed "singular" }

/-- The ID of a type that an option in a package names: a name with a leading dot is an ID, a
dotted name a full name, and any other is in the package. -/
def typeIdIn (package name : String) : String :=
  if name.isEmpty || name.toList.head? == some '.' then name
  else if name.toList.contains '.' || package.isEmpty then "." ++ name
  else "." ++ package ++ "." ++ name

namespace MessageValue

/-- The option that marks an element as deprecated. -/
def isDeprecated (options : MessageValue) : Bool := options.flagNamed "deprecated"

/-- The HTTP rule of a method. -/
def httpRule? (options : MessageValue) : Option MessageValue := ApiOption.httpRule.message? options

/-- The host of a service; empty if none is given. -/
def defaultHost (options : MessageValue) : String :=
  ((ApiOption.defaultHost.slot? options).bind options.text?).getD ""

/-- The resource of a message. -/
def resource? (options : MessageValue) : Option Resource :=
  (ApiOption.resource.message? options).bind Resource.ofDescriptor?

/-- The resources that a file defines without a message. -/
def resourceDefinitions (options : MessageValue) : List Resource :=
  ((ApiOption.resourceDefinition.slot? options).elim [] options.messages).filterMap
    Resource.ofDescriptor?

/-- The resource that a field refers to. -/
def resourceReference? (options : MessageValue) : Option ResourceReference :=
  (ApiOption.resourceReference.message? options).map fun r =>
    { kind := r.textNamed "type", childKind := r.textNamed "child_type" }

/-- The behaviour of a field; unknown values are left out. -/
def fieldBehavior (options : MessageValue) : List FieldBehavior :=
  ((ApiOption.fieldBehavior.slot? options).elim [] options.enumNumbers).filterMap
    FieldBehavior.ofNumber?

/-- The types behind the operation that a method of a package starts. -/
def operationInfo? (package : String) (options : MessageValue) : Option OperationInfo :=
  (ApiOption.operationInfo.message? options).map fun info =>
    { responseTypeId := typeIdIn package (info.textNamed "response_type")
      metadataTypeId := typeIdIn package (info.textNamed "metadata_type") }

end MessageValue

end ApiModel
