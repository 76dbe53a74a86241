import ApiModel.ApiOption
import ApiModel.HttpRule
import ApiModel.Model.Api
import ApiModel.Naming
import ApiModel.Schema.Place
import ApiModel.Text.Blank
import ApiModel.Text.Line

/-!
# The model of a schema

`Schema.toApi` makes the model of one package of a schema.  The files of the package give the model
its elements and services; the other files only register theirs.  An element's ID is its full name
behind a dot.

The only failure is a path of an HTTP rule that is no path template.
-/

namespace ApiModel

/-- The ID of the element with a full name. -/
def elementId (fullName : String) : String := "." ++ fullName

/-! ## Comments -/

/-- A comment as documentation: each line loses one space in front, and the end its blanks. -/
def cleanComment (s : String) : String :=
  let lines := (Text.lines s.toList).map fun line => (Text.behind? [' '] line).getD line
  String.ofList (Text.trimEnd (List.intercalate ['\n'] lines))

/-- The documentation of the element at a path: the last comment that stands there. -/
def FileDescriptor.documentation {ρ : Type} (f : FileDescriptor ρ) (path : List Int) : String :=
  ((f.comments.filter (·.path == path)).filterMap (·.leading)).getLast?.elim "" cleanComment

namespace MessageDescriptor

/-- The fields in the order of their numbers. -/
def fieldsByNumber {ρ : Type} (m : MessageDescriptor ρ) : List (FieldDescriptor ρ) :=
  m.fields.mergeSort fun a b => decide (a.number ≤ b.number)

end MessageDescriptor

namespace Schema

/-! ## Messages and enumerations -/

/-- The field is a map: repeated, and its message stands for entries. -/
def isMapField (schema : Schema) (f : FieldDescriptor FieldType) : Bool :=
  f.isRepeated && (f.type.messageName?.bind schema.messages.get?).any (·.isMapEntry)

/-- The kind of a field and the ID of its type. -/
def kindOf : FieldType → FieldKind × String
  | .scalar kind => (kind, "")
  | .message fullName | .group fullName => (.message, elementId fullName)
  | .enumeration fullName => (.enumeration, elementId fullName)

/-- The field of a descriptor that is declared at a path. -/
def toField (schema : Schema) (file : FileDescriptor FieldType) (scope : String)
    (f : FieldDescriptor FieldType) (path : List Int) : Field :=
  let options := schema.options .field f.options
  let isMap := schema.isMapField f
  { name := f.name
    jsonName := f.json Naming.jsonName
    id := elementId (qualifiedName scope f.name)
    documentation := file.documentation path
    kind := (kindOf f.type).1
    typeId := (kindOf f.type).2
    repeated := f.isRepeated && !isMap
    isMap
    optional := f.proto3Optional
    deprecated := options.isDeprecated
    behavior := options.fieldBehavior
    resourceReference := options.resourceReference? }

/-- The fields of a message in the order of their numbers; comments go by declaration order. -/
def toFields (schema : Schema) (file : FileDescriptor FieldType)
    (m : Placed (MessageDescriptor FieldType)) : List Field :=
  let declared := m.members 2 m.element.fields
  (declared.mergeSort fun a b => decide (a.1.number ≤ b.1.number)).map fun (f, path) =>
    schema.toField file m.fullName f path

/-- The one-ofs of a message that group fields. -/
def toOneOfs (file : FileDescriptor FieldType) (m : Placed (MessageDescriptor FieldType)) :
    List OneOf :=
  let groups := (m.members 8 m.element.oneofs).zipIdx.filter fun g => !m.element.isSynthetic g.2
  groups.map fun ((oneof, path), index) =>
    { name := oneof.name
      id := elementId (qualifiedName m.fullName oneof.name)
      documentation := file.documentation path
      fields := (m.element.oneofMembers index).map fun f =>
        elementId (qualifiedName m.fullName f.name) }

/-- The message of a descriptor. -/
def toMessage (schema : Schema) (file : FileDescriptor FieldType)
    (m : Placed (MessageDescriptor FieldType)) : Message :=
  let options := schema.options .message m.element.options
  { name := m.element.name
    id := elementId m.fullName
    package := file.package
    documentation := file.documentation m.path
    deprecated := options.isDeprecated
    fields := schema.toFields file m
    oneOfs := toOneOfs file m
    parent := m.outer.map elementId
    resource := options.resource?
    isMap := m.element.isMapEntry }

/-- Puts a value among others that are in the order of their numbers; of values with one number, the
last stays behind the new one. -/
def placeValue (v : EnumValueDescriptor × List Int) (vs : List (EnumValueDescriptor × List Int)) :
    List (EnumValueDescriptor × List Int) :=
  let upTo := vs.takeWhile fun w => decide (w.1.number ≤ v.1.number)
  let beyond := vs.dropWhile fun w => decide (w.1.number ≤ v.1.number)
  match upTo.getLast? with
  | some last =>
    if last.1.number = v.1.number then upTo.dropLast ++ [v, last] ++ beyond
    else upTo ++ [v] ++ beyond
  | none => v :: beyond

/-- The values of an enumeration in the order of their numbers; comments go by declaration order. -/
def valuesByNumber (e : Placed EnumDescriptor) : List (EnumValueDescriptor × List Int) :=
  (e.members 2 e.element.values).foldl (fun vs v => placeValue v vs) []

/-- The enumeration of a descriptor. -/
def toEnumeration (schema : Schema) (file : FileDescriptor FieldType) (e : Placed EnumDescriptor) :
    Enumeration :=
  let id := elementId e.fullName
  { name := e.element.name
    id
    package := file.package
    documentation := file.documentation e.path
    deprecated := (schema.options .enumeration e.element.options).isDeprecated
    values := (valuesByNumber e).map fun (v, path) =>
      { name := v.name
        id := memberId id v.name
        documentation := file.documentation path
        number := v.number
        deprecated := (schema.options .enumValue v.options).isDeprecated }
    parent := e.outer.map elementId }

/-! ## Services -/

/-- The names of the fields of the message with a full name, in the order of their numbers. -/
def fieldNames (schema : Schema) (fullName : String) : List String :=
  (schema.messages.get? fullName).elim [] fun m => m.fieldsByNumber.map (·.name)

/-- The method of a descriptor that is declared at a path. -/
def toMethod (schema : Schema) (file : FileDescriptor FieldType) (scope : String)
    (m : MethodDescriptor) (path : List Int) : Except PathTemplate.Error Method := do
  let options := schema.options .method m.options
  let pathInfo ← match options.httpRule? with
    | some rule => (HttpRule.ofValue rule).pathInfo (schema.fieldNames m.input)
    | none => .ok {}
  return {
    name := m.name
    id := elementId (qualifiedName scope m.name)
    documentation := file.documentation path
    deprecated := options.isDeprecated
    inputTypeId := elementId m.input
    outputTypeId := elementId m.output
    pathInfo
    operation := options.operationInfo? file.package
    clientStreaming := m.clientStreaming
    serverStreaming := m.serverStreaming }

/-- The service of a descriptor, without its methods. -/
def toService (schema : Schema) (file : FileDescriptor FieldType) (s : Placed ServiceDescriptor) :
    Service :=
  let options := schema.options .service s.element.options
  { name := s.element.name
    id := elementId s.fullName
    package := file.package
    documentation := file.documentation s.path
    deprecated := options.isDeprecated
    defaultHost := options.defaultHost }

/-- The methods of a service. -/
def toMethods (schema : Schema) (file : FileDescriptor FieldType) (s : Placed ServiceDescriptor) :
    Except PathTemplate.Error (List Method) :=
  (s.members 2 s.element.methods).mapM fun (m, path) => schema.toMethod file s.fullName m path

/-! ## Packages and names -/

/-- The package of the files that no file imports: of the first with a service, else of the first. -/
def sourcePackage (schema : Schema) : String :=
  let sources := schema.files.filter fun f =>
    !schema.files.any fun g => g.dependencies.contains f.name
  let source := sources.find? (fun f => !f.services.isEmpty) <|> sources.head?
  source.elim "" (·.package)

/-- The part of a package name says a version, such as `v1`. -/
def isVersion : List Char → Bool
  | 'v' :: c :: _ => c.isDigit
  | _ => false

/-- The name of an API by a host: its service name. -/
def hostName (host : String) : String :=
  let name := (Text.pieces (· == ':') host.toList).headD []
  String.ofList ((Text.ahead? ".googleapis.com".toList name).getD name)

/-- The name of an API by its package: the last part that is no version. -/
def packageName (package : String) : String :=
  let parts := (Text.pieces (· == '.') package.toList).filter (!isVersion ·)
  String.ofList (parts.getLast?.getD [])

/-- The name of the API in a package: by the first host among its services, else by the package. -/
def apiName (schema : Schema) (package : String) : String :=
  let services := (schema.files.filter (·.package == package)).flatMap (·.services)
  let hosts := services.map fun s => (schema.options .service s.options).defaultHost
  (hosts.find? (!·.isEmpty)).elim (packageName package) hostName

/-! ## Models -/

/-- Adds what a file of the package declares. -/
def addFile (schema : Schema) (api : Api) (file : FileDescriptor FieldType) :
    Except PathTemplate.Error Api := do
  let resources := (schema.options .file file.options).resourceDefinitions
  let api := resources.foldl Api.addResourceDefinition api
  let api := (file.placedMessages.map (schema.toMessage file)).foldl Api.addMessage api
  let api := (file.placedEnums.map (schema.toEnumeration file)).foldl Api.addEnum api
  file.placedServices.foldlM (fun api s => do
    return api.addService (schema.toService file s) (← schema.toMethods file s)) api

/-- Registers what a file of another package declares. -/
def registerFile (schema : Schema) (api : Api) (file : FileDescriptor FieldType) : Api :=
  let resources := (schema.options .file file.options).resourceDefinitions
  let api := resources.foldl Api.withResource api
  let api := (file.placedMessages.map (schema.toMessage file)).foldl Api.addDependencyMessage api
  (file.placedEnums.map (schema.toEnumeration file)).foldl Api.addDependencyEnum api

/-- The model of a package; without one, of the package that the files are about. -/
def toApi (schema : Schema) (package : Option String) : Except PathTemplate.Error Api :=
  let package := package.getD schema.sourcePackage
  schema.files.foldlM
    (fun api file =>
      if file.package = package then schema.addFile api file else .ok (schema.registerFile api file))
    { name := schema.apiName package, package }

end Schema

end ApiModel
