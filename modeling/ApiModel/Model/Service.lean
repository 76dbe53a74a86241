import ApiModel.Model.Message

/-!
# Services and methods

A service lists its methods by ID.  A method names the types of its request and its response, and the
HTTP paths it is bound to.  `Traits` holds what the shape of a method says about it; it is computed
from the model and cached on the method.
-/

namespace ApiModel

/-- The request fields that make up a resource name, and the name's template. -/
structure TargetResource where
  /-- One field path for each variable of the template. -/
  fieldPaths : List (List String)
  template : String
  deriving DecidableEq

/-- One HTTP verb and path. -/
structure PathBinding where
  verb : String
  path : PathTemplate
  /-- The request fields sent in the query. -/
  queryParameters : List String := []
  target : Option TargetResource := none
  deriving DecidableEq

/-- The HTTP side of a method. -/
structure PathInfo where
  bindings : List PathBinding := []
  /-- The request field sent as the body; `*` is the whole request. -/
  body : Option String := none
  deriving DecidableEq

/-- The types behind a long-running operation. -/
structure OperationInfo where
  responseTypeId : String
  metadataTypeId : String
  /-- The method that starts the operation, once cross-referenced. -/
  methodId : Option String := none
  deriving DecidableEq

/-- How an operation is polled where operations are resources of their own. -/
structure PollingInfo where
  pathParameters : List String := []
  deriving DecidableEq

/-- The request fields of a standard create method. -/
structure CreateFields where
  parent : String
  resourceId : Option String
  resource : String
  deriving DecidableEq

/-- The request fields of a standard update method. -/
structure UpdateFields where
  resource : String
  updateMask : String
  deriving DecidableEq

/-- The standard kinds of method that a method is of, each with the request fields it is keyed on. -/
structure StandardFields where
  get : Option String := none
  delete : Option String := none
  undelete : Option String := none
  create : Option CreateFields := none
  update : Option UpdateFields := none
  list : Option String := none
  deriving DecidableEq

/-- The method is of some standard kind. -/
def StandardFields.any (s : StandardFields) : Bool :=
  s.get.isSome || s.delete.isSome || s.undelete.isSome || s.create.isSome || s.update.isSome ||
    s.list.isSome

/-- What the shape of a method says about it. -/
structure Traits where
  isSimple : Bool := false
  isLro : Bool := false
  isList : Bool := false
  isStreaming : Bool := false
  isStandard : Bool := false
  standard : StandardFields := {}
  deriving DecidableEq

/-- What cross-referencing resolved for a method. -/
structure MethodLinks where
  inputType : Option String := none
  outputType : Option String := none
  /-- The service that lists the method. -/
  service : Option String := none
  /-- The service that declared the method. -/
  sourceService : Option String := none
  /-- The name of the model. -/
  model : Option String := none
  deriving DecidableEq

/-- A method of a service. -/
structure Method where
  name : String
  id : String
  documentation : String := ""
  deprecated : Bool := false
  inputTypeId : String
  outputTypeId : String
  pathInfo : PathInfo := {}
  operation : Option OperationInfo := none
  polling : Option PollingInfo := none
  clientStreaming : Bool := false
  serverStreaming : Bool := false
  /-- The ID of the service that declared a method mixed into another one. -/
  sourceServiceId : String := ""
  links : MethodLinks := {}
  /-- The name of the page token field of a paginated method. -/
  pagination : Option String := none
  traits : Traits := {}
  deriving DecidableEq

/-- The method answers with the empty message. -/
def Method.returnsEmpty (m : Method) : Bool := m.outputTypeId == emptyMessageId

/-- A service. -/
structure Service where
  name : String
  id : String
  package : String
  documentation : String := ""
  deprecated : Bool := false
  defaultHost : String := ""
  /-- The IDs of the methods. -/
  methods : List String := []
  /-- The name of the model, once cross-referenced. -/
  model : Option String := none
  deriving DecidableEq

/-- A service without methods.  Its ID has both dots even if the package is empty. -/
def Service.new (name package : String) : Service :=
  { name, package, id := "." ++ package ++ "." ++ name }

/-- A method of a service without bindings. -/
def Method.new (service : Service) (name inputTypeId outputTypeId : String) : Method :=
  { name, inputTypeId, outputTypeId, id := memberId service.id name }

end ApiModel
