import ApiModel.Json
import ApiModel.View

/-!
# Views as documents

The JSON document of a view, for tools that read the model.  Members come in the order of the
structures.
-/

namespace ApiModel

namespace BindingView

def toJson (b : BindingView) : Json :=
  .obj [
    ("verb", .str b.verb),
    ("path", .str b.path),
    ("query_parameters", .strings b.queryParameters),
    ("target_template", .ofOption .str b.targetTemplate),
    ("target_fields", .strings b.targetFields)]

end BindingView

def StandardView.toJson (s : StandardView) : Json :=
  .obj [("kind", .str s.kind), ("field", .str s.field)]

def PaginationView.toJson (p : PaginationView) : Json :=
  .obj [
    ("page_token", .str p.pageToken),
    ("next_page_token", .str p.nextPageToken),
    ("item", .str p.item),
    ("item_type", .str p.itemType)]

def OperationView.toJson (o : OperationView) : Json :=
  .obj [("response_type", .str o.responseType), ("metadata_type", .str o.metadataType)]

def MethodView.toJson (m : MethodView) : Json :=
  .obj [
    ("name", .str m.name),
    ("id", .str m.id),
    ("documentation", .str m.documentation),
    ("deprecated", .bool m.deprecated),
    ("input_type", .str m.inputType),
    ("output_type", .str m.outputType),
    ("body", .ofOption .str m.body),
    ("bindings", .arr (m.bindings.map (·.toJson))),
    ("is_simple", .bool m.isSimple),
    ("is_lro", .bool m.isLro),
    ("is_list", .bool m.isList),
    ("is_streaming", .bool m.isStreaming),
    ("standard", .ofOption StandardView.toJson m.standard),
    ("pagination", .ofOption PaginationView.toJson m.pagination),
    ("operation", .ofOption OperationView.toJson m.operation)]

def ServiceView.toJson (s : ServiceView) : Json :=
  .obj [
    ("name", .str s.name),
    ("id", .str s.id),
    ("documentation", .str s.documentation),
    ("default_host", .str s.defaultHost),
    ("deprecated", .bool s.deprecated),
    ("methods", .arr (s.methods.map (·.toJson)))]

def ResourceView.toJson (r : ResourceView) : Json :=
  .obj [
    ("type", .str r.kind),
    ("singular", .str r.singular),
    ("plural", .str r.plural),
    ("patterns", .strings r.patterns)]

def ApiView.toJson (v : ApiView) : Json :=
  .obj [
    ("name", .str v.name),
    ("title", .str v.title),
    ("description", .str v.description),
    ("package_name", .str v.package),
    ("services", .arr (v.services.map (·.toJson))),
    ("resources", .arr (v.resources.map (·.toJson)))]

end ApiModel
