import ApiModel.Defect
import ApiModel.Outcome
import ApiModel.Sample
import ApiModel.Standard

/-!
# Cross-referencing

Every reference by ID is checked against the registry, and what it resolves to is recorded in the
`links` of the element that refers.  Then samples and method traits are filled in.

The pass goes over messages, enumerations, methods and services, each in ID order, and stops at the
first reference that does not resolve; what it recorded before stays.  It writes nothing that it
reads, so a second run repeats the first.
-/

namespace ApiModel

/-! ## Fields -/

/-- Links a field to its message and to its type. -/
def Registry.linkField (r : Registry) (messageId : String) (f : Field) : Outcome Field Defect :=
  let f := { f with links.parent := some messageId }
  match f.kind with
  | .message =>
    if r.messages.contains f.typeId then ⟨{ f with links.messageType := some f.typeId }, none⟩
    else ⟨f, some (.missingMessageType f.id f.typeId)⟩
  | .enumeration =>
    if r.enums.contains f.typeId then ⟨{ f with links.enumType := some f.typeId }, none⟩
    else ⟨f, some (.missingEnumType f.id f.typeId)⟩
  | _ => ⟨f, none⟩

/-- Links the member of a one-of to its group. -/
def joinGroup (messageId : String) (fields : List Field) (member : String × String) :
    Outcome (List Field) Defect :=
  let (oneOfId, fieldId) := member
  match fields.findIdx? (·.id == fieldId) with
  | none => ⟨fields, some (.missingOneOfField oneOfId fieldId)⟩
  | some i =>
    ⟨fields.modify i fun f => { f with links.group := some oneOfId, links.parent := some messageId },
      none⟩

/-- The members of a message's one-ofs, each with the ID of its one-of. -/
def Message.groupMembers (m : Message) : List (String × String) :=
  m.oneOfs.flatMap fun o => o.fields.map (o.id, ·)

/-- Links the fields of a message. -/
def Registry.linkMessage (r : Registry) (m : Message) : Outcome Message Defect :=
  ((Outcome.sweep (r.linkField m.id) m.fields).andThen fun fields =>
    Outcome.fold (joinGroup m.id) fields m.groupMembers).map fun fields => { m with fields }

def Api.linkFields (api : Api) : Outcome Api Defect :=
  (api.registry.messages.sweep api.registry.linkMessage).map fun messages =>
    { api with registry.messages := messages }

/-! ## Enumerations -/

/-- Links the values of an enumeration to it. -/
def Enumeration.linkValues (e : Enumeration) : Enumeration :=
  { e with values := e.values.map fun v => { v with parent := some e.id } }

def Api.linkEnums (api : Api) : Api :=
  { api with registry.enums := api.registry.enums.map fun _ e => e.linkValues }

/-! ## Methods -/

/-- Links a method to its request and response, and its operation to the method. -/
def Registry.linkMethod (r : Registry) (m : Method) : Outcome Method Defect :=
  if !r.messages.contains m.inputTypeId then ⟨m, some (.missingInputType m.id m.inputTypeId)⟩
  else if !r.messages.contains m.outputTypeId then
    ⟨m, some (.missingOutputType m.id m.outputTypeId)⟩
  else
    ⟨{ m with
        links.inputType := some m.inputTypeId
        links.outputType := some m.outputTypeId
        operation := m.operation.map fun info => { info with methodId := some m.id } }, none⟩

def Api.linkMethods (api : Api) : Outcome Api Defect :=
  (api.registry.methods.sweep api.registry.linkMethod).map fun methods =>
    { api with registry.methods := methods }

/-! ## Services -/

/-- Links a method to the service that lists it and to the one that declared it. -/
def Method.joinService (api : Api) (s : Service) (m : Method) : Method :=
  { m with
    links.model := some api.name
    links.service := some s.id
    links.sourceService :=
      some (if api.registry.services.contains m.sourceServiceId then m.sourceServiceId else s.id) }

/-- Links one listed method of a service. -/
def Api.linkListed (api : Api) (s : Service) (methods : IdMap Method) (id : String) :
    Outcome (IdMap Method) Defect :=
  if methods.contains id then ⟨methods.modify id (Method.joinService api s), none⟩
  else ⟨methods, some (.missingElement .method id)⟩

/-- Links a service to the model and its methods to the service. -/
def Api.linkService (api : Api) (methods : IdMap Method) (s : Service) :
    Outcome (IdMap Method × Service) Defect :=
  (Outcome.fold (api.linkListed s) methods s.methods).map fun methods =>
    (methods, { s with model := some api.name })

def Api.linkServices (api : Api) : Outcome Api Defect :=
  (api.registry.services.thread api.linkService api.registry.methods).map fun (methods, services) =>
    { api with registry.methods := methods, registry.services := services }

/-! ## Samples and traits -/

/-- Caches the traits of every method, each under the method's own ID. -/
def Api.withTraits (api : Api) : Api :=
  let traits := api.registry.methods.values.map fun m => (m.id, m.classify api)
  { api with registry.methods := traits.foldl (fun methods t =>
      methods.modify t.1 fun m => { m with traits := t.2 }) api.registry.methods }

/-- Fills in samples and traits. -/
def Api.enriched (api : Api) : Api :=
  Api.withTraits
    { api with
      registry.enums := api.registry.enums.map fun _ e => e.withSamples
      registry.messages := api.registry.messages.map fun _ m => m.withSamples }

/-- Resolves every reference, then fills in samples and traits. -/
def Api.crossReference (api : Api) : Outcome Api Defect :=
  ((((api.linkFields.andThen fun api => ⟨api.linkEnums, none⟩).andThen
    Api.linkMethods).andThen Api.linkServices).andThen fun api => ⟨api.enriched, none⟩)

end ApiModel
