import ApiModel.Defect
import ApiModel.Model.Api
import ApiModel.Outcome

/-!
# Target resources

For every HTTP binding, the request fields that make up the name of the resource it acts on:

* *explicit*: every variable of the path is bound to a field that refers to a resource;
* *by vocabulary*: for some services without such annotations, the pairs `collection/{id}` at the
  front of the path, as far as they reach.  Collections are words of a vocabulary, or look like a
  plural.

`Target.explicit?` and `Target.byVocabulary?` decide for one binding.  `Api.targetPass` finds the targets
of all bindings and records them behind that.
-/

namespace ApiModel

namespace Target

open ApiModel.Text

/-! ## Words -/

/-- The first four parts of the IDs of services that may go by vocabulary. -/
def eligibleServices : List String :=
  [".google.cloud.compute", ".google.cloud.sql", ".google.cloud.bigquery"]

/-- Collections of every API. -/
def baseVocabulary : List String :=
  ["projects", "locations", "folders", "organizations", "billingAccounts", "zones", "regions"]

/-- Words that end like a plural and are none. -/
def singularWords : List String :=
  ["access", "address", "alias", "analysis", "basis", "bus", "class", "diagnosis", "dns", "egress",
    "ingress", "os", "process", "progress", "status", "success"]

/-- The service may go by vocabulary. -/
def isEligible (serviceId : String) : Bool :=
  let parts := pieces (· == '.') serviceId.toList
  decide (4 ≤ parts.length) &&
    eligibleServices.contains (String.ofList (List.intercalate ['.'] (parts.take 4)))

/-- The word looks like the plural name of a collection. -/
def looksPlural (word : String) : Bool :=
  let cs := word.toList
  decide (2 ≤ cs.length) && cs.getLast? == some 's' && cs.head?.any Char.isLower &&
    cs.all Char.isAlphanum && !singularWords.contains word

def isCollection (vocabulary : List String) (word : String) : Bool :=
  vocabulary.contains word || looksPlural word

/-- The literals that stand before a variable in a path. -/
def literalsBeforeVariables : List PathSegment → List String
  | .literal word :: .bound v :: rest => word :: literalsBeforeVariables (.bound v :: rest)
  | _ :: rest => literalsBeforeVariables rest
  | [] => []

/-- The literals that stand before `*` in the pattern of a variable. -/
def literalsBeforeStars : List String → List String
  | a :: b :: rest =>
    if b == "*" && a != "*" && a != "**" then a :: literalsBeforeStars (b :: rest)
    else literalsBeforeStars (b :: rest)
  | _ => []

/-- The collections that the path of a standard method names. -/
def collectionsOf (path : PathTemplate) : List String :=
  literalsBeforeVariables path.segments ++ path.boundVariables.flatMap (literalsBeforeStars ·.segments)

/-- The vocabulary of an API: the base words, the plurals of its resources, and the collections of
its standard methods. -/
def vocabulary (api : Api) : List String :=
  baseVocabulary ++
    (api.registry.resources.values.map (·.plural)).filter (!·.isEmpty) ++
    (api.registry.methods.values.filter (·.traits.isStandard)).flatMap fun m =>
      m.pathInfo.bindings.flatMap (collectionsOf ·.path)

/-! ## Field paths -/

/-- The request of a method. -/
def request (api : Api) (m : Method) : Except Defect Message :=
  (api.message? m.inputTypeId).elim (.error (.missingInputType m.id m.inputTypeId)) .ok

/-- Follows a field path from a message; `whole` is the path that messages quote. -/
def follow (api : Api) (m : Method) (whole : String) : Message → List String → Except Defect Field
  | message, [] => .error (.missingField m.id message.id "")
  | message, [name] => (message.field? name).elim (.error (.missingField m.id message.id name)) .ok
  | message, name :: rest => do
    let f ← (message.field? name).elim (.error (.missingField m.id message.id name)) .ok
    let next ← (api.fieldMessage? f).elim (.error (.missingFieldMessageType f.id whole)) .ok
    follow api m whole next rest

/-- The field that a variable is bound to. -/
def boundField (api : Api) (m : Method) (input : Message) (v : PathVariable) : Except Defect Field :=
  follow api m v.fieldName input v.fieldPath

/-! ## Templates -/

/-- The host of a service: its default host, or one made of the API's name. -/
def host (api : Api) (s : Service) : Except Defect String :=
  if !s.defaultHost.isEmpty then .ok s.defaultHost
  else if !api.name.isEmpty then .ok (api.name ++ ".googleapis.com")
  else .error (.missingHost s.id)

/-- A segment in a resource name template: a variable is written without its pattern. -/
def segmentText : PathSegment → String
  | .literal word => word
  | .bound v => "\x7b" ++ v.fieldName ++ "\x7d"

/-- The template of a resource name. -/
def template (api : Api) (s : Service) (segments : List PathSegment) : Except Defect String := do
  return "//" ++ (← host api s) ++ String.join (segments.map fun x => "/" ++ segmentText x)

/-! ## Annotated variables -/

/-- The segments behind the last variable are dropped. -/
def dropTail (segments : List PathSegment) : List PathSegment :=
  (segments.reverse.dropWhile (!·.isBound)).reverse

/-- The segments from the first variable on, with the literal before a variable over one segment;
such a literal names the variable's collection. -/
def fromFirst : List PathSegment → List PathSegment
  | .literal word :: .bound v :: rest =>
    if v.isSingle then .literal word :: .bound v :: rest else .bound v :: rest
  | .literal _ :: rest => fromFirst rest
  | segments => segments

/-- The target of a path whose variables are all bound to fields that refer to resources. -/
def explicit? (api : Api) (s : Service) (m : Method) (path : PathTemplate) :
    Except Defect (Option TargetResource) := do
  let input ← request api m
  let fields ← path.boundVariables.mapM (boundField api m input)
  if fields.isEmpty || fields.any (·.resourceReference.isNone) then return none
  let name ← template api s (fromFirst (dropTail path.segments))
  return some { fieldPaths := path.boundVariables.map (·.fieldPath), template := name }

/-! ## Collections and variables -/

/-- A collection and the variable behind it. -/
structure Pair where
  collection : String
  id : PathVariable

/-- A pair stands at the front. -/
def startsWithPair (vocabulary : List String) : List PathSegment → Bool
  | .literal word :: .bound v :: _ => v.isSingle && isCollection vocabulary word
  | _ => false

/-- The pairs at the front of a list of segments. -/
def pairs (vocabulary : List String) : List PathSegment → List Pair
  | .literal word :: .bound v :: rest =>
    if v.isSingle && isCollection vocabulary word then ⟨word, v⟩ :: pairs vocabulary rest else []
  | _ => []

/-- The pairs from the first one on.  Only literals may stand before them: a variable there is one whose
collection is none. -/
def firstPairs (vocabulary : List String) (segments : List PathSegment) : List Pair :=
  match (List.range segments.length).find? fun i => startsWithPair vocabulary (segments.drop i) with
  | none => []
  | some i => if (segments.take i).any (·.isBound) then [] else pairs vocabulary (segments.drop i)

def Pair.segments (p : Pair) : List PathSegment := [.literal p.collection, .bound p.id]

/-- The target that the leading pairs of a path make up. -/
def byVocabulary? (api : Api) (s : Service) (m : Method) (path : PathTemplate)
    (vocabulary : List String) : Except Defect (Option TargetResource) := do
  if !isEligible s.id then return none
  match firstPairs vocabulary path.segments with
  | [] => return none
  | found => do
    let input ← request api m
    found.forM fun p => discard (boundField api m input p.id)
    let name ← template api s (found.flatMap Pair.segments)
    return some { fieldPaths := found.map (·.id.fieldPath), template := name }

/-! ## All bindings -/

/-- The target of one binding. -/
def ofPath (api : Api) (vocabulary : List String) (s : Service) (m : Method) (path : PathTemplate) :
    Except Defect (Option TargetResource) := do
  match ← explicit? api s m path with
  | some t => return some t
  | none => byVocabulary? api s m path vocabulary

/-- The targets of a method's bindings, with the method's ID. -/
def ofMethod (api : Api) (vocabulary : List String) (s : Service) (m : Method) :
    Except Defect (String × List (Option TargetResource)) := do
  return (m.id, ← m.pathInfo.bindings.mapM (ofPath api vocabulary s m ·.path))

/-- The targets of all bindings of listed methods, services in ID order. -/
def all (api : Api) : Except Defect (List (String × List (Option TargetResource))) := do
  let words := vocabulary api
  let found ← api.registry.services.values.mapM fun s =>
    (api.methodsOf s).mapM (ofMethod api words s)
  return found.flatten

/-- Records targets on the leading bindings of a method. -/
def assign : List PathBinding → List (Option TargetResource) → List PathBinding
  | b :: bs, t :: ts => { b with target := t } :: assign bs ts
  | bs, _ => bs

/-- Records the targets of a method's bindings. -/
def record (api : Api) (found : String × List (Option TargetResource)) : Api :=
  { api with registry.methods := api.registry.methods.modify found.1 fun m =>
      { m with pathInfo.bindings := assign m.pathInfo.bindings found.2 } }

end Target

/-- Sets the target of every binding of every listed method.  What a defect stops is the search, which
records nothing yet. -/
def Api.targetPass (api : Api) : Outcome Api Defect :=
  match Target.all api with
  | .ok found => ⟨found.foldl Target.record api, none⟩
  | .error d => ⟨api, some d⟩

/-- The model with its targets, unless the pass meets a defect. -/
def Api.identifyTargets (api : Api) : Except Defect Api := api.targetPass.toExcept

end ApiModel
