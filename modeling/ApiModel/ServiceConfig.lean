import ApiModel.Model.Api
import ApiModel.Text.Blank
import ApiModel.Yaml.Record

/-!
# Service configuration

The file that describes a service beside its specification names the API and documents it.  Entries
that are missing or empty leave the model as it is.
-/

namespace ApiModel

open ApiModel.Yaml

/-- The entries of a service configuration that a model takes over. -/
structure ServiceConfig where
  /-- The name of the service: its host. -/
  name : String := ""
  title : String := ""
  summary : String := ""
  deriving DecidableEq

namespace ServiceConfig

/-- The summary in the documentation of a service. -/
def summary? (d : Document) (n : Node) : Option String := do
  memberOr (some "") d.text? (← d.members? ["summary"] n) "summary"

/-- The service configuration in a document. -/
def ofDocument? (d : Document) : Option ServiceConfig := do
  let members ← d.rootMembers? ["name", "title", "documentation"]
  let text := memberOr (some "") d.text? members
  return {
    name := ← text "name"
    title := ← text "title"
    summary := ← memberOr (some "") (summary? d) members "documentation" }

/-- The service configuration in a file's text. -/
def ofYaml? (s : String) : Option ServiceConfig := do ofDocument? (← Document.ofText? s)

/-- The name of the API of a service: what is in front of the common domain of services. -/
def apiName (c : ServiceConfig) : String :=
  ((Text.ahead? ".googleapis.com".toList c.name.toList).map String.ofList).getD c.name

/-- Fills in the name, the title and the description of a model. -/
def apply (c : ServiceConfig) (api : Api) : Api :=
  { api with
    name := if c.name.isEmpty then api.name else c.apiName
    title := if c.title.isEmpty then api.title else c.title
    description :=
      if c.summary.isEmpty then api.description
      else String.ofList (Text.trim c.summary.toList) }

end ServiceConfig

end ApiModel
