import ApiModel.MessageValue
import ApiModel.Model.Service
import ApiModel.PathTemplate.Parser
import ApiModel.Text.Letter

/-!
# HTTP rules

The HTTP rule of a method has a main route and additional ones.  A route is a verb, a path and the
request field that is sent as the body; each route with a path becomes a binding of the method, and
the request fields that are neither in the path nor in the body are sent in the query.

`HttpRule.pathInfo` fails with the first path that is no template.
-/

namespace ApiModel

/-- One way to call a method. -/
structure HttpRoute where
  /-- The verb and the path, unless the route leaves them out. -/
  pattern : Option (String × String) := none
  /-- The request field sent as the body: `*` is the whole request, nothing is no body. -/
  body : String := ""
  deriving DecidableEq

/-- The HTTP rule of a method. -/
structure HttpRule where
  main : HttpRoute := {}
  additional : List HttpRoute := []
  deriving DecidableEq

namespace HttpRoute

/-- The verbs with fields of their own, in the order in which they are looked for. -/
def verbs : List String := ["get", "put", "post", "delete", "patch"]

/-- A verb and a path, unless the path is empty. -/
def withPath? (verb path : String) : Option (String × String) :=
  if path.isEmpty then none else some (String.ofList (Text.capitals verb.toList), path)

/-- The route that an annotation's message describes. -/
def ofValue (v : MessageValue) : HttpRoute :=
  let standard := verbs.findSome? fun verb => withPath? verb (v.textNamed verb)
  let custom := ((v.named? "custom").bind v.message?).bind fun c =>
    withPath? (c.textNamed "kind") (c.textNamed "path")
  { pattern := standard <|> custom, body := v.textNamed "body" }

/-- The request fields that are sent in the query. -/
def queryParameters (requestFields : List String) (path : PathTemplate) (body : String) :
    List String :=
  if body = "*" then []
  else
    let inPath := path.boundVariables.filterMap (·.fieldPath.head?)
    requestFields.filter fun name => !inPath.contains name && name != body

/-- The binding of a route, if it has a path. -/
def binding? (requestFields : List String) (r : HttpRoute) :
    Except PathTemplate.Error (Option PathBinding) :=
  match r.pattern with
  | none => .ok none
  | some (verb, path) => do
    let path ← PathTemplate.parse path
    return some { verb, path, queryParameters := queryParameters requestFields path r.body }

end HttpRoute

namespace HttpRule

/-- The rule that an annotation's message describes. -/
def ofValue (v : MessageValue) : HttpRule :=
  { main := .ofValue v
    additional := ((v.named? "additional_bindings").elim [] v.messages).map .ofValue }

/-- All routes, the main one first. -/
def routes (r : HttpRule) : List HttpRoute := r.main :: r.additional

/-- The HTTP side of a method with this rule, whose request has the given fields. -/
def pathInfo (requestFields : List String) (r : HttpRule) :
    Except PathTemplate.Error PathInfo := do
  let bindings ← r.routes.mapM (HttpRoute.binding? requestFields)
  return {
    bindings := bindings.filterMap id
    body := if r.main.body.isEmpty then none else some r.main.body }

end HttpRule

end ApiModel
