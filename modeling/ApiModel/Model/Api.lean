import ApiModel.IdMap
import ApiModel.Model.Service

/-!
# The API model

An `Api` names one package and lists its top-level elements; its `Registry` holds every known element
by ID, dependencies included.  The builders register an element and list it where it belongs.

Lookups follow IDs through the registry and yield nothing where an ID is not registered.
-/

namespace ApiModel

/-- Every known element by ID, and every known resource by its type. -/
structure Registry where
  messages : IdMap Message := ∅
  enums : IdMap Enumeration := ∅
  services : IdMap Service := ∅
  methods : IdMap Method := ∅
  resources : IdMap Resource := ∅

/-- The model of one API. -/
structure Api where
  name : String := ""
  title : String := ""
  description : String := ""
  package : String := ""
  /-- The IDs of the top-level messages. -/
  messages : List String := []
  /-- The IDs of the top-level enumerations. -/
  enums : List String := []
  /-- The IDs of the services. -/
  services : List String := []
  /-- The resources that are defined without a message. -/
  resourceDefinitions : List Resource := []
  registry : Registry := {}

namespace Api

/-! ## Builders -/

/-- Registers the resource that an element carries. -/
def withResource (api : Api) (r : Resource) : Api :=
  { api with registry.resources := api.registry.resources.insert r.kind r }

/-- Registers a message without listing it. -/
def addDependencyMessage (api : Api) (m : Message) : Api :=
  let api := m.resource.elim api api.withResource
  { api with registry.messages := api.registry.messages.insert m.id m }

/-- Lists a type at its parent, or at the top level if it has none. -/
def listMessage (api : Api) (m : Message) : Api :=
  match m.parent with
  | some parent =>
    { api with registry.messages := api.registry.messages.modify parent fun p =>
        { p with messages := p.messages ++ [m.id] } }
  | none => { api with messages := api.messages ++ [m.id] }

/-- Lists a message at its parent or at the top level, and registers it. -/
def addMessage (api : Api) (m : Message) : Api := (api.listMessage m).addDependencyMessage m

/-- Registers an enumeration without listing it. -/
def addDependencyEnum (api : Api) (e : Enumeration) : Api :=
  { api with registry.enums := api.registry.enums.insert e.id e }

/-- Lists an enumeration at its parent, or at the top level if it has none. -/
def listEnum (api : Api) (e : Enumeration) : Api :=
  match e.parent with
  | some parent =>
    { api with registry.messages := api.registry.messages.modify parent fun p =>
        { p with enums := p.enums ++ [e.id] } }
  | none => { api with enums := api.enums ++ [e.id] }

/-- Lists an enumeration at its parent or at the top level, and registers it. -/
def addEnum (api : Api) (e : Enumeration) : Api := (api.listEnum e).addDependencyEnum e

/-- Registers and lists a service with its methods. -/
def addService (api : Api) (s : Service) (methods : List Method) : Api :=
  { api with
    services := api.services ++ [s.id]
    registry.methods := methods.foldl (fun all m => all.insert m.id m) api.registry.methods
    registry.services := api.registry.services.insert s.id { s with methods := methods.map (·.id) } }

/-- Registers and lists a resource that is defined without a message. -/
def addResourceDefinition (api : Api) (r : Resource) : Api :=
  let api := api.withResource r
  { api with resourceDefinitions := api.resourceDefinitions ++ [r] }

/-! ## Lookups -/

def message? (api : Api) (id : String) : Option Message := api.registry.messages.get? id

def enum? (api : Api) (id : String) : Option Enumeration := api.registry.enums.get? id

def service? (api : Api) (id : String) : Option Service := api.registry.services.get? id

def method? (api : Api) (id : String) : Option Method := api.registry.methods.get? id

/-- The resource with a resource type. -/
def resource? (api : Api) (kind : String) : Option Resource := api.registry.resources.get? kind

/-- The message that a cross-referenced field holds. -/
def fieldMessage? (api : Api) (f : Field) : Option Message := f.links.messageType.bind api.message?

/-- The enumeration that a cross-referenced field holds. -/
def fieldEnum? (api : Api) (f : Field) : Option Enumeration := f.links.enumType.bind api.enum?

/-- The request of a cross-referenced method. -/
def input? (api : Api) (m : Method) : Option Message := m.links.inputType.bind api.message?

/-- The response of a cross-referenced method. -/
def output? (api : Api) (m : Method) : Option Message := m.links.outputType.bind api.message?

/-- The page token field of a paginated method. -/
def pageTokenField? (api : Api) (m : Method) : Option Field := do
  (← api.input? m).field? (← m.pagination)

/-- The response field that holds the items of a page. -/
def pageItemField? (api : Api) (m : Method) : Option Field := do
  let output ← api.output? m
  output.field? (← output.pagination).pageableItem

/-- The registered methods of a service, in order. -/
def methodsOf (api : Api) (s : Service) : List Method := s.methods.filterMap api.method?

end Api

end ApiModel
