import ApiModel.Model.Api
import ApiModel.Naming

/-!
# Traits of methods

What the shape of a method says about it.  A method is of a standard kind when its name is a verb
with a rest, its request (and for lists its response) is named after both, and the annotated fields
that the kind is keyed on exist:

* `GetSecret(GetSecretRequest)` returns a resource,
* `ListSecrets(ListSecretsRequest)` returns a `ListSecretsResponse` with a page of resources,
* create, update, delete and undelete go by the same pattern.

`classify` is a function of the model alone; names are compared without regard to the case of ASCII
letters.
-/

namespace ApiModel

open ApiModel.Text

namespace Standard

/-! ## Names -/

/-- The rest of a method's name behind a verb; it is not empty. -/
def afterVerb? (verb name : String) : Option (List Char) :=
  let head := name.toList.take verb.toList.length
  let rest := name.toList.drop verb.toList.length
  if sameLetters head verb.toList && !rest.isEmpty then some rest else none

/-- The name is the verb, the rest and a suffix. -/
def named (name verb : String) (rest : List Char) (suffix : String) : Bool :=
  sameLetters name.toList (verb.toList ++ rest ++ suffix.toList)

/-- The rest of a method's name, if its request is named after the method. -/
def subject? (verb : String) (m : Method) (input : Message) : Option (List Char) := do
  let rest ← afterVerb? verb m.name
  if named input.name verb rest "request" then some rest else none

/-! ## Fields -/

/-- The first field that passes a test and is called `name`, else the first that passes it. -/
def namedFirst? (name : String) (p : Field → Bool) (fields : List Field) : Option Field :=
  ((fields.filter p).find? (·.name == name)).or (fields.find? p)

/-- The field refers to a resource type. -/
def refersTo (kind : String) (f : Field) : Bool := f.resourceReference.any (·.kind == kind)

/-- The field that names the resource of a get request. -/
def resourceField? (input : Message) (kind : String) : Option Field :=
  (namedFirst? "name" (refersTo kind) input.fields).or
    (input.fields.find? fun f => f.name == "name" && refersTo "*" f)

/-- The singular name of the resource type that a reference names. -/
def singularOf (api : Api) (kind : String) : String :=
  match api.resource? kind with
  | some r => if r.singular.isEmpty then Resource.typeNameOf kind else r.singular
  | none => Resource.typeNameOf kind

/-- The field refers to a resource with a singular name. -/
def refersToSingular (api : Api) (singular : List Char) (f : Field) : Bool :=
  f.resourceReference.any fun r => sameLetters (singularOf api r.kind).toList singular

/-- The field that names the parent of a resource. -/
def parentField? (input : Message) (kind : String) : Option Field :=
  (input.fields.find? (·.resourceReference.any (·.childKind == kind))).or (input.field? "parent")

/-- The field that carries the resource itself. -/
def bodyField? (input : Message) (m : Method) (resourceId : String) : Option Field :=
  (input.fields.find? fun f => f.isMessage && f.typeId == resourceId).or
    (m.pathInfo.body.bind input.field?)

/-- The field is a field mask. -/
def isFieldMask (f : Field) : Bool := f.isMessage && f.typeId == fieldMaskId

/-- The message a method returns in the end: its operation's response if it has an operation. -/
def result? (api : Api) (m : Method) : Option Message :=
  match m.operation with
  | some info => api.message? info.responseTypeId
  | none => api.message? m.outputTypeId

/-- The subject of a method fits the resource's singular, if it has one. -/
def singularMatches (r : Resource) (subject : List Char) : Bool :=
  r.singular.isEmpty || sameLetters r.singular.toList subject

/-! ## Kinds -/

def getField? (api : Api) (m : Method) (t : Traits) : Option String := do
  guard (t.isSimple && !m.returnsEmpty)
  let input ← api.message? m.inputTypeId
  let subject ← subject? "get" m input
  let resource ← (← result? api m).resource
  guard (singularMatches resource subject)
  return (← resourceField? input resource.kind).name

/-- The shape that delete and undelete share: the request names the resource. -/
def nameField? (verb : String) (api : Api) (m : Method) (t : Traits) : Option String := do
  guard (t.isSimple || t.isLro)
  let input ← api.message? m.inputTypeId
  let subject ← subject? verb m input
  return (← namedFirst? "name" (refersToSingular api subject) input.fields).name

def createFields? (api : Api) (m : Method) (t : Traits) : Option CreateFields := do
  guard ((t.isSimple || t.isLro) && !m.returnsEmpty)
  let input ← api.message? m.inputTypeId
  let subject ← subject? "create" m input
  let output ← result? api m
  let resource ← output.resource
  let parent ← parentField? input resource.kind
  let body ← bodyField? input m output.id
  let id := (input.field? (Naming.snakeCase (String.ofList subject) ++ "_id")).filter (·.isString)
  return { parent := parent.name, resourceId := id.map (·.name), resource := body.name }

def updateFields? (api : Api) (m : Method) (t : Traits) : Option UpdateFields := do
  guard ((t.isSimple || t.isLro) && !m.returnsEmpty)
  let input ← api.message? m.inputTypeId
  let _ ← subject? "update" m input
  let output ← result? api m
  let _ ← output.resource
  let body ← bodyField? input m output.id
  let mask ← namedFirst? "update_mask" isFieldMask input.fields
  return { resource := body.name, updateMask := mask.name }

def listField? (api : Api) (m : Method) (t : Traits) : Option String := do
  guard t.isList
  let input ← api.message? m.inputTypeId
  let output ← api.message? m.outputTypeId
  let subject ← subject? "list" m input
  guard (named output.name "list" subject "response")
  let item ← output.field? (← output.pagination).pageableItem
  let resource ← (← api.message? item.typeId).resource
  return (← parentField? input resource.kind).name

end Standard

/-- The flags of a method; they do not depend on names. -/
def Method.flags (api : Api) (m : Method) : Traits :=
  let isStreaming := m.clientStreaming || m.serverStreaming
  { isSimple := m.pagination.isNone && !isStreaming && m.operation.isNone && m.polling.isNone
    isLro := m.operation.isSome
    isList := (api.message? m.outputTypeId).any (·.pagination.isSome)
    isStreaming }

/-- What the shape of a method says about it. -/
def Method.classify (api : Api) (m : Method) : Traits :=
  let flags := m.flags api
  let standard : StandardFields :=
    { get := Standard.getField? api m flags
      delete := Standard.nameField? "delete" api m flags
      undelete := Standard.nameField? "undelete" api m flags
      create := Standard.createFields? api m flags
      update := Standard.updateFields? api m flags
      list := Standard.listField? api m flags }
  { flags with standard, isStandard := standard.any }

end ApiModel
