import ApiModel.Model.Api

/-!
# Filtering

A configuration skips elements by ID, or includes a choice of them.  Skipped services and methods
leave the model; skipped messages and enumerations are no longer listed but stay registered, so that
fields which use them still resolve.  If any elements are included, other top-level elements go, and
inside a service that stays, other methods go if one of its methods is included.
-/

namespace ApiModel

/-- Which elements a configuration skips and includes. -/
structure Selection where
  skipped : List String
  included : List String

namespace Selection

/-- The element is not skipped. -/
def lists (s : Selection) (id : String) : Bool := !s.skipped.contains id

/-- The top-level element stays. -/
def keeps (s : Selection) (id : String) : Bool :=
  s.lists id && (s.included.isEmpty || s.included.contains id)

/-- The method stays in a service with the given methods. -/
def keepsMethod (s : Selection) (siblings : List String) (id : String) : Bool :=
  s.lists id && (!siblings.any s.included.contains || s.included.contains id)

/-- The service with the methods that stay. -/
def restrict (s : Selection) (service : Service) : Service :=
  { service with methods := service.methods.filter (s.keepsMethod service.methods) }

/-- The methods that a service loses. -/
def lostBy (s : Selection) (service : Service) : List String :=
  service.methods.filter fun id => !s.keepsMethod service.methods id

end Selection

namespace Api

/-- The listed services that a selection drops. -/
def droppedServices (api : Api) (s : Selection) : List String :=
  api.services.filter fun id => !s.keeps id

/-- The services that stay registered, with all their methods. -/
def keptServices (api : Api) (s : Selection) : IdMap Service :=
  let dropped := api.droppedServices s
  api.registry.services.filter fun id _ => !dropped.contains id

/-- The methods that go with a dropped service or are dropped from a service that stays. -/
def droppedMethods (api : Api) (s : Selection) : List String :=
  ((api.droppedServices s).filterMap api.service?).flatMap (·.methods) ++
    (api.keptServices s).values.flatMap s.lostBy

/-- Drops what a selection does not keep. -/
def applySelection (api : Api) (s : Selection) : Api :=
  let methods := api.droppedMethods s
  { api with
    services := api.services.filter s.keeps
    messages := api.messages.filter s.keeps
    enums := api.enums.filter s.keeps
    registry.services := (api.keptServices s).map fun _ service => s.restrict service
    registry.methods := api.registry.methods.filter fun id _ => !methods.contains id
    registry.messages := api.registry.messages.map fun _ m =>
      { m with messages := m.messages.filter s.lists, enums := m.enums.filter s.lists } }

end Api

end ApiModel
