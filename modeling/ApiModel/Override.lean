import ApiModel.Config
import ApiModel.Defect
import ApiModel.Model.Api
import ApiModel.Outcome

/-!
# Overrides

A configuration may replace parts of the documentation of single elements, and the name, the title
and the description of the API.

A documentation override finds its element by ID: a message, an enumeration, a service, a method, or
else a field or a value inside the type that the ID without its last part names.
-/

namespace ApiModel

/-- An element with documentation. -/
inductive DocumentedElement where
  | message (id : String)
  | enumeration (id : String)
  | service (id : String)
  | method (id : String)
  /-- A field by its place in a message. -/
  | field (messageId : String) (index : Nat)
  /-- A value by its place in an enumeration. -/
  | value (enumId : String) (index : Nat)
  deriving DecidableEq

namespace Registry

/-- The field or value with an ID. -/
def member? (r : Registry) (id : String) : Option DocumentedElement := do
  let (owner, _) ← Text.cutLast '.' id.toList
  let owner := String.ofList owner
  match r.messages.get? owner with
  | some m => (m.fields.findIdx? (·.id == id)).map (.field owner)
  | none => ((← r.enums.get? owner).values.findIdx? (·.id == id)).map (.value owner)

/-- The element with an ID. -/
def element? (r : Registry) (id : String) : Option DocumentedElement :=
  if r.messages.contains id then some (.message id)
  else if r.enums.contains id then some (.enumeration id)
  else if r.services.contains id then some (.service id)
  else if r.methods.contains id then some (.method id)
  else r.member? id

/-- The documentation of an element. -/
def documentation? (r : Registry) : DocumentedElement → Option String
  | .message id => (r.messages.get? id).map (·.documentation)
  | .enumeration id => (r.enums.get? id).map (·.documentation)
  | .service id => (r.services.get? id).map (·.documentation)
  | .method id => (r.methods.get? id).map (·.documentation)
  | .field id i => (r.messages.get? id).bind fun m => m.fields[i]?.map (·.documentation)
  | .value id i => (r.enums.get? id).bind fun e => e.values[i]?.map (·.documentation)

/-- Replaces the documentation of an element. -/
def document (r : Registry) (text : String) : DocumentedElement → Registry
  | .message id => { r with messages := r.messages.modify id ({ · with documentation := text }) }
  | .enumeration id => { r with enums := r.enums.modify id ({ · with documentation := text }) }
  | .service id => { r with services := r.services.modify id ({ · with documentation := text }) }
  | .method id => { r with methods := r.methods.modify id ({ · with documentation := text }) }
  | .field id i => { r with messages := r.messages.modify id fun m =>
      { m with fields := m.fields.modify i ({ · with documentation := text }) } }
  | .value id i => { r with enums := r.enums.modify id fun e =>
      { e with values := e.values.modify i ({ · with documentation := text }) } }

end Registry

/-- The text with the first occurrence of a part replaced. -/
def replaceFirst? (text part replacement : String) : Option String :=
  (Text.cutAt part.toList text.toList).map fun (before, after) =>
    String.ofList before ++ replacement ++ String.ofList after

/-- Applies one documentation override; a refused one changes nothing. -/
def Api.overrideDocumentation (api : Api) (o : DocumentationOverride) : Outcome Api Defect :=
  let refused (fault : OverrideFault) : Outcome Api Defect :=
    ⟨api, some (.documentationOverride o.id fault)⟩
  match api.registry.element? o.id with
  | none => refused .unknownElement
  | some element =>
    match (api.registry.documentation? element).bind (replaceFirst? · o.text o.replacement) with
    | none => refused (.textNotFound o.text)
    | some text => ⟨{ api with registry := api.registry.document text element }, none⟩

/-- Applies documentation overrides in order up to the first that is refused. -/
def Api.overrideDocumentations (api : Api) (os : List DocumentationOverride) : Outcome Api Defect :=
  Outcome.fold Api.overrideDocumentation api os

/-- Renames the API wherever its name is recorded. -/
def Api.rename (api : Api) (name : String) : Api :=
  { api with
    name
    registry.services := api.registry.services.map fun _ s => { s with model := some name }
    registry.methods := api.registry.methods.map fun _ m => { m with links.model := some name } }

/-- Replaces the API's name, title and description where a configuration says so. -/
def Api.applyOverrides (api : Api) (c : Config) : Api :=
  let api := c.nameOverride.elim api api.rename
  { api with
    title := c.titleOverride.getD api.title
    description := c.descriptionOverride.getD api.description }

end ApiModel
