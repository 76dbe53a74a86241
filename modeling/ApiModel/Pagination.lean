import ApiModel.Config
import ApiModel.Model.Api

/-!
# Pagination

A method is paginated when its request asks for a page by size and token, and its response carries
the next token and a field with the page's items.  A configuration may name the item field.

`paginate` decides for every method on the model as it was, then records the results in ID order.
-/

namespace ApiModel

namespace Pagination

/-- The request field that limits the size of a page; older APIs call it `maxResults`. -/
def isPageSize (f : Field) : Bool :=
  let isInteger := f.kind == .int32 || f.kind == .uint32
  if f.jsonName == "pageSize" then isInteger
  else f.jsonName == "maxResults" &&
    (isInteger || (f.isMessage && integerWrapperIds.contains f.typeId))

def isPageToken (f : Field) : Bool := f.jsonName == "pageToken" && f.isString

def isNextPageToken (f : Field) : Bool := f.jsonName == "nextPageToken" && f.isString

/-- A repeated message field that is no map. -/
def isItemList (f : Field) : Bool := f.repeated && !f.isMap && f.isMessage

/-- The field with the items: the first list of messages, else the first map. -/
def itemField? (response : Message) : Option Field :=
  (response.fields.find? isItemList).or (response.fields.find? (·.isMap))

/-- The item field that a configuration names for a method. -/
def overriding? (overrides : List PaginationOverride) (id : String) : Option String :=
  (overrides.find? (·.id == id)).map (·.itemField)

/-- The page token's name and the response's shape, if the messages page. -/
def shape? (request response : Message) (itemName : Option String) :
    Option (String × PaginationInfo) := do
  let _ ← request.fields.find? isPageSize
  let token ← request.fields.find? isPageToken
  let item ← itemName.elim (itemField? response) response.field?
  let next ← response.fields.find? isNextPageToken
  return (token.name, { nextPageToken := next.name, pageableItem := item.name })

/-- What paginating records for one method. -/
structure Finding where
  methodId : String
  responseId : String
  pageToken : String
  info : PaginationInfo

/-- Looks at one method. -/
def finding? (api : Api) (overrides : List PaginationOverride) (m : Method) : Option Finding := do
  let request ← api.message? m.inputTypeId
  let response ← api.message? m.outputTypeId
  let (pageToken, info) ← shape? request response (overriding? overrides m.id)
  return { methodId := m.id, responseId := response.id, pageToken, info }

/-- Records a finding on the method and on its response. -/
def record (api : Api) (f : Finding) : Api :=
  { api with
    registry.methods := api.registry.methods.modify f.methodId fun m =>
      { m with pagination := some f.pageToken }
    registry.messages := api.registry.messages.modify f.responseId fun m =>
      { m with pagination := some f.info } }

end Pagination

/-- Marks the paginated methods and their responses. -/
def Api.paginate (api : Api) (overrides : List PaginationOverride) : Api :=
  (api.registry.methods.values.filterMap (Pagination.finding? api overrides)).foldl
    Pagination.record api

end ApiModel
