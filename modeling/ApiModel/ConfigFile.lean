import ApiModel.Config
import ApiModel.Yaml.Record

/-!
# Configuration files

A configuration is a YAML record.  The format and the source of the specification are required, and so
are all members of an override.
-/

namespace ApiModel

open ApiModel.Yaml

def PaginationOverride.ofNode? (d : Document) (n : Node) : Option PaginationOverride := do
  let members ← d.members? ["id", "item_field"] n
  let text := memberOr none d.text? members
  return { id := ← text "id", itemField := ← text "item_field" }

def DocumentationOverride.ofNode? (d : Document) (n : Node) : Option DocumentationOverride := do
  let members ← d.members? ["id", "match", "replace"] n
  let text := memberOr none d.text? members
  return { id := ← text "id", text := ← text "match", replacement := ← text "replace" }

namespace Config

/-- The members of a configuration file. -/
def keys : List String :=
  ["specification_format", "specification_source", "service_config", "name_override",
    "title_override", "description_override", "pagination_overrides", "documentation_overrides",
    "skipped_ids", "included_ids"]

/-- The configuration in a document. -/
def ofDocument? (d : Document) : Option Config := do
  let members ← d.rootMembers? keys
  let text := memberOr none d.text? members
  let optional := memberOr (some none) d.textOrNull? members
  let ids := memberOr (some []) (d.list? d.text?) members
  return {
    format := ← text "specification_format"
    source := ← text "specification_source"
    serviceConfig := ← optional "service_config"
    nameOverride := ← optional "name_override"
    titleOverride := ← optional "title_override"
    descriptionOverride := ← optional "description_override"
    paginationOverrides :=
      ← memberOr (some []) (d.list? (PaginationOverride.ofNode? d)) members "pagination_overrides"
    documentationOverrides :=
      ← memberOr (some []) (d.list? (DocumentationOverride.ofNode? d)) members
        "documentation_overrides"
    skippedIds := ← ids "skipped_ids"
    includedIds := ← ids "included_ids" }

/-- The configuration in a file's text. -/
def ofYaml? (s : String) : Option Config := do ofDocument? (← Document.ofText? s)

end Config

end ApiModel
