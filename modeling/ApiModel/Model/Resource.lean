import ApiModel.PathTemplate.Basic
import ApiModel.Text.Piece

/-!
# Resources

The resource annotations of an API: a resource type such as `secretmanager.googleapis.com/Secret`
with the patterns of its names, and references from fields to resource types.
-/

namespace ApiModel

/-- A resource type and the shape of its names. -/
structure Resource where
  kind : String
  patterns : List (List PathSegment) := []
  plural : String := ""
  singular : String := ""
  deriving DecidableEq

/-- The resource type a field refers to, directly or as the parent of a child type. -/
structure ResourceReference where
  kind : String := ""
  childKind : String := ""
  deriving DecidableEq

namespace Resource

/-- The part of a resource type behind the last slash. -/
def typeNameOf (kind : String) : String :=
  match Text.cutLast '/' kind.toList with
  | some (_, name) => String.ofList name
  | none => kind

/-- The name of the resource type without its service. -/
def typeName (r : Resource) : String := typeNameOf r.kind

end Resource

end ApiModel
