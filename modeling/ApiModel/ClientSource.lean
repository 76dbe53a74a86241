import ApiModel.Naming
import ApiModel.Text.Blank
import ApiModel.Text.Line
import ApiModel.View

/-!
# Client bindings

The source text of a client skeleton: a structure for each service and, for each of its methods, a
function that describes the HTTP request.  Documentation becomes comment lines.
-/

namespace ApiModel

namespace ClientSource

open ApiModel.Text

/-! ## Comments -/

/-- A line of documentation as a comment. -/
def commentLine (line : List Char) : List Char :=
  if isBlankText line then "///".toList else "/// ".toList ++ trimEnd line

/-- Documentation as comment lines before an item.  Each line after the first, and the item, stand
behind `indent` spaces; documentation of blanks is left out. -/
def comment (indent : Nat) (documentation : String) : String :=
  let doc := documentation.toList
  if isBlankText doc then ""
  else
    let feed := '\n' :: List.replicate indent ' '
    String.ofList (List.intercalate feed ((lines (trimEnd doc)).map commentLine) ++ feed)

/-- A text in a string literal; it stands as it is. -/
def literal (text : String) : String := "\"" ++ text ++ "\""

/-! ## Methods -/

def paginationComment (p : PaginationView) : String :=
  "///\n    /// Paginated: items are in `" ++ p.item ++ "` (" ++ p.itemType ++
    "),\n    /// follow `" ++ p.nextPageToken ++ "` with `" ++ p.pageToken ++ "`.\n    "

def operationComment (o : OperationView) : String :=
  "///\n    /// Long-running: resolves to `" ++ o.responseType ++ "`.\n    "

/-- The optional body of a request; an empty name is no body. -/
def bodyText (body : Option String) : String :=
  match body with
  | some name => if name.isEmpty then "None" else "Some(" ++ literal name ++ ")"
  | none => "None"

/-- The description of a binding's request. -/
def request (b : BindingView) (body : Option String) : String :=
  "\n        Some(RequestTemplate \x7b" ++
  "\n            verb: " ++ literal b.verb ++ "," ++
  "\n            path: " ++ literal b.path ++ "," ++
  "\n            body: " ++ bodyText body ++ "," ++
  "\n            query_parameters: &[" ++ ", ".intercalate (b.queryParameters.map literal) ++ "]," ++
  "\n        \x7d)"

/-- The function of a method; it describes the first binding. -/
def method (m : MethodView) : String :=
  "\n\n    " ++ comment 4 m.documentation ++ m.pagination.elim "" paginationComment ++
    m.operation.elim "" operationComment ++
    (if m.deprecated then "#[deprecated]\n    " else "") ++
    "pub fn " ++ Naming.snakeCase m.name ++ "(&self) -> Option<RequestTemplate> \x7b" ++
    (m.bindings.head?.elim "\n        None" fun b => request b m.body) ++
    "\n    \x7d"

/-! ## Services -/

/-- What every service has besides its methods. -/
def constructors (host : String) : String :=
  "    pub const DEFAULT_HOST: &'static str = " ++ literal host ++ ";\n\n" ++
  "    pub fn new() -> Self \x7b\n" ++
  "        Self::with_endpoint(format!(\"https://\x7b\x7d\", Self::DEFAULT_HOST))\n" ++
  "    \x7d\n\n" ++
  "    pub fn with_endpoint(endpoint: impl Into<String>) -> Self \x7b\n" ++
  "        Self \x7b\n" ++
  "            endpoint: endpoint.into(),\n" ++
  "        \x7d\n" ++
  "    \x7d\n\n" ++
  "    pub fn endpoint(&self) -> &str \x7b\n" ++
  "        &self.endpoint\n" ++
  "    \x7d"

def service (s : ServiceView) : String :=
  let name := Naming.pascalCase s.name
  "\n" ++ comment 0 s.documentation ++ (if s.deprecated then "#[deprecated]\n" else "") ++
  "#[derive(Debug, Clone, PartialEq, Eq)]\n" ++
  "pub struct " ++ name ++ " \x7b\n" ++
  "    endpoint: String,\n" ++
  "\x7d\n\n" ++
  "impl " ++ name ++ " \x7b\n" ++
  constructors s.defaultHost ++ String.join (s.methods.map method) ++
  "\n\x7d\n\n" ++
  "impl Default for " ++ name ++ " \x7b\n" ++
  "    fn default() -> Self \x7b\n" ++
  "        Self::new()\n" ++
  "    \x7d\n" ++
  "\x7d\n"

/-- What comes before the services. -/
def header (title package : String) : String :=
  "//! " ++ title ++ "\n" ++
  "//!\n" ++
  "//! Request descriptions for `" ++ package ++ "`.\n" ++
  "//! Generated by apigen. Do not edit.\n\n" ++
  "/// HTTP request shape of one RPC\n" ++
  "#[derive(Debug, Clone, Copy, PartialEq, Eq)]\n" ++
  "pub struct RequestTemplate \x7b\n" ++
  "    pub verb: &'static str,\n" ++
  "    /// Path template, e.g. `/v1/\x7bname=projects/*/secrets/*\x7d`\n" ++
  "    pub path: &'static str,\n" ++
  "    /// Request field sent as the body, `*` for the whole request\n" ++
  "    pub body: Option<&'static str>,\n" ++
  "    pub query_parameters: &'static [&'static str],\n" ++
  "\x7d\n"

end ClientSource

/-- The client skeleton of a view; without a title it is headed by the name. -/
def ApiView.clientSource (v : ApiView) : String :=
  ClientSource.header (if v.title.isEmpty then v.name else v.title) v.package ++
    String.join (v.services.map ClientSource.service)

end ApiModel
