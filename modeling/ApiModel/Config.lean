/-!
# Configuration

The settings of one run: where the specification is, and how the model departs from it.
-/

namespace ApiModel

/-- Names the field that holds the items of a method's pages. -/
structure PaginationOverride where
  id : String
  itemField : String
  deriving DecidableEq

/-- Replaces a part of an element's documentation. -/
structure DocumentationOverride where
  id : String
  text : String
  replacement : String
  deriving DecidableEq

/-- The settings of one run. -/
structure Config where
  /-- The name of the specification's format. -/
  format : String
  /-- The path of the specification. -/
  source : String
  /-- The path of the service configuration. -/
  serviceConfig : Option String := none
  nameOverride : Option String := none
  titleOverride : Option String := none
  descriptionOverride : Option String := none
  paginationOverrides : List PaginationOverride := []
  documentationOverrides : List DocumentationOverride := []
  /-- Elements that leave the model. -/
  skippedIds : List String := []
  /-- If there are any, no other elements stay. -/
  includedIds : List String := []
  deriving DecidableEq

end ApiModel
