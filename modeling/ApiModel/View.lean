import ApiModel.Model.Api

/-!
# Views

What the artifacts show of a model: services with their methods in order, IDs resolved to the names
and shapes that are written.
-/

namespace ApiModel

structure BindingView where
  verb : String
  path : String
  queryParameters : List String
  targetTemplate : Option String
  /-- The dotted field paths that make up the resource name. -/
  targetFields : List String
  deriving DecidableEq

/-- The standard kind of a method and the request field it is keyed on. -/
structure StandardView where
  kind : String
  field : String
  deriving DecidableEq

structure PaginationView where
  pageToken : String
  nextPageToken : String
  item : String
  itemType : String
  deriving DecidableEq

structure OperationView where
  responseType : String
  metadataType : String
  deriving DecidableEq

structure MethodView where
  name : String
  id : String
  documentation : String
  deprecated : Bool
  inputType : String
  outputType : String
  body : Option String
  bindings : List BindingView
  isSimple : Bool
  isLro : Bool
  isList : Bool
  isStreaming : Bool
  standard : Option StandardView
  pagination : Option PaginationView
  operation : Option OperationView
  deriving DecidableEq

structure ServiceView where
  name : String
  id : String
  documentation : String
  defaultHost : String
  deprecated : Bool
  methods : List MethodView
  deriving DecidableEq

structure ResourceView where
  kind : String
  singular : String
  plural : String
  patterns : List String
  deriving DecidableEq

structure ApiView where
  name : String
  title : String
  description : String
  package : String
  services : List ServiceView
  resources : List ResourceView
  deriving DecidableEq

namespace PathBinding

def view (b : PathBinding) : BindingView :=
  { verb := b.verb
    path := b.path.text
    queryParameters := b.queryParameters
    targetTemplate := b.target.map (·.template)
    targetFields := b.target.elim [] fun t => t.fieldPaths.map ".".intercalate }

end PathBinding

/-- The standard kind of a method; of several, the first of get, list, create, update, delete and
undelete. -/
def StandardFields.view? (s : StandardFields) : Option StandardView :=
  (s.get.map (⟨"get", ·⟩)).or <|
  (s.list.map (⟨"list", ·⟩)).or <|
  (s.create.map (⟨"create", ·.parent⟩)).or <|
  (s.update.map (⟨"update", ·.resource⟩)).or <|
  (s.delete.map (⟨"delete", ·⟩)).or <|
  s.undelete.map (⟨"undelete", ·⟩)

/-- The type of a field: its message or enumeration, else the word for its kind. -/
def Field.typeText (f : Field) : String := if f.typeId.isEmpty then f.kind.word else f.typeId

def OperationInfo.view (o : OperationInfo) : OperationView := ⟨o.responseTypeId, o.metadataTypeId⟩

namespace Api

/-- How a paginated method pages, if its fields are registered. -/
def paginationView? (api : Api) (m : Method) : Option PaginationView := do
  let token ← api.pageTokenField? m
  let info ← (← api.output? m).pagination
  let item ← api.pageItemField? m
  return { pageToken := token.name, nextPageToken := info.nextPageToken, item := item.name,
           itemType := item.typeText }

def methodView (api : Api) (m : Method) : MethodView :=
  { name := m.name
    id := m.id
    documentation := m.documentation
    deprecated := m.deprecated
    inputType := m.inputTypeId
    outputType := m.outputTypeId
    body := m.pathInfo.body
    bindings := m.pathInfo.bindings.map (·.view)
    isSimple := m.traits.isSimple
    isLro := m.traits.isLro
    isList := m.traits.isList
    isStreaming := m.traits.isStreaming
    standard := m.traits.standard.view?
    pagination := api.paginationView? m
    operation := m.operation.map (·.view) }

def serviceView (api : Api) (s : Service) : ServiceView :=
  { name := s.name
    id := s.id
    documentation := s.documentation
    defaultHost := s.defaultHost
    deprecated := s.deprecated
    methods := (api.methodsOf s).map api.methodView }

end Api

def Resource.view (r : Resource) : ResourceView :=
  { kind := r.kind, singular := r.singular, plural := r.plural
    patterns := r.patterns.map PathSegment.patternText }

/-- What the artifacts show of a model. -/
def Api.view (api : Api) : ApiView :=
  { name := api.name
    title := api.title
    description := api.description
    package := api.package
    services := (api.services.filterMap api.service?).map api.serviceView
    resources := api.registry.resources.values.map (·.view) }

/-- The number of methods in a view. -/
def ApiView.methodCount (v : ApiView) : Nat :=
  v.services.foldl (fun count s => count + s.methods.length) 0

end ApiModel
