import ApiModel.Json
import ApiModel.View

/-!
# The manifest

A YAML document of a view.  Names, kinds and verbs are written as plain scalars, texts and IDs as
quoted ones; entries that say nothing are left out.

Every entry begins with a line feed and its indentation, so that entries are put together by `++`.
-/

namespace ApiModel

namespace Manifest

/-- The start of a line. -/
def line (indent : Nat) : String := "\n" ++ String.ofList (List.replicate indent ' ')

/-- An entry with a plain scalar. -/
def plain (indent : Nat) (key value : String) : String := line indent ++ key ++ ": " ++ value

/-- An entry with a quoted scalar. -/
def quoted (indent : Nat) (key value : String) : String := plain indent key (Json.quote value)

/-- An entry with a list of quoted scalars. -/
def list (indent : Nat) (key : String) (values : List String) : String :=
  plain indent key (Json.strings values).compact

def flag (indent : Nat) (key : String) (value : Bool) : String :=
  plain indent key (if value then "true" else "false")

/-- An entry that is left out if its text is missing or empty. -/
def optional (indent : Nat) (key : String) (value : Option String) : String :=
  match value with
  | some text => if text.isEmpty then "" else quoted indent key text
  | none => ""

/-- An entry whose items follow; without items it is an empty list. -/
def heading (indent : Nat) (key : String) (isEmpty : Bool) : String :=
  line indent ++ key ++ ":" ++ (if isEmpty then " []" else "")

/-- An entry whose items follow, left out if there are none. -/
def block {α : Type} (indent : Nat) (key : String) (item : α → String) (items : List α) : String :=
  if items.isEmpty then "" else line indent ++ key ++ ":" ++ String.join (items.map item)

def target (b : BindingView) : String :=
  match b.targetTemplate with
  | some template =>
    if template.isEmpty then ""
    else line 12 ++ "target_resource:" ++ quoted 14 "template" template ++
      list 14 "fields" b.targetFields
  | none => ""

def binding (b : BindingView) : String :=
  plain 10 "- verb" b.verb ++ quoted 12 "path" b.path ++
    (if b.queryParameters.isEmpty then "" else list 12 "query" b.queryParameters) ++ target b

def standard (s : StandardView) : String :=
  plain 8 "standard" s.kind ++ plain 8 "standard_field" s.field

def pagination (p : PaginationView) : String :=
  line 8 ++ "pagination:" ++ plain 10 "page_token" p.pageToken ++
    plain 10 "next_page_token" p.nextPageToken ++ plain 10 "item" p.item ++
    quoted 10 "item_type" p.itemType

def operation (o : OperationView) : String :=
  line 8 ++ "operation:" ++ quoted 10 "response" o.responseType ++
    quoted 10 "metadata" o.metadataType

def method (m : MethodView) : String :=
  plain 6 "- name" m.name ++ quoted 8 "id" m.id ++ quoted 8 "input" m.inputType ++
    quoted 8 "output" m.outputType ++ m.standard.elim "" standard ++ flag 8 "simple" m.isSimple ++
    flag 8 "lro" m.isLro ++ flag 8 "list" m.isList ++ flag 8 "streaming" m.isStreaming ++
    optional 8 "body" m.body ++ m.pagination.elim "" pagination ++ m.operation.elim "" operation ++
    block 8 "bindings" binding m.bindings

def service (s : ServiceView) : String :=
  plain 2 "- name" s.name ++ quoted 4 "id" s.id ++ quoted 4 "host" s.defaultHost ++
    (if s.deprecated then flag 4 "deprecated" true else "") ++
    heading 4 "methods" s.methods.isEmpty ++ String.join (s.methods.map method)

def resource (r : ResourceView) : String :=
  quoted 2 "- type" r.kind ++ quoted 4 "singular" r.singular ++ quoted 4 "plural" r.plural ++
    list 4 "patterns" r.patterns

end Manifest

open Manifest in
/-- The manifest of a view. -/
def ApiView.manifest (v : ApiView) : String :=
  "# Generated by apigen from " ++ v.package ++ ". Do not edit." ++ quoted 0 "name" v.name ++
    quoted 0 "title" v.title ++ quoted 0 "package" v.package ++
    optional 0 "description" (some v.description) ++ heading 0 "services" v.services.isEmpty ++
    String.join (v.services.map service) ++ block 0 "resources" resource v.resources ++ "\n"

end ApiModel
