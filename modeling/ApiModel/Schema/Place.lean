import ApiModel.Schema.Basic

/-!
# Places of declarations

Where the elements of a file are declared: their full names, the messages around them, and their
paths.  A path alternates field numbers of the descriptor format with positions, and is what a comment
is attached to.
-/

namespace ApiModel

/-- An element of a file and where it is declared. -/
structure Placed (α : Type) where
  element : α
  fullName : String
  /-- The full name of the message around it. -/
  outer : Option String := none
  path : List Int := []

namespace Placed

/-- The elements at the positions of a list, whose field has a number. -/
def members {α β : Type} (p : Placed α) (number : Int) (elements : List β) : List (β × List Int) :=
  elements.zipIdx.map fun (b, i) => (b, p.path ++ [number, (i : Int)])

end Placed

mutual

/-- A message and the messages nested in it, each ahead of its own. -/
def MessageDescriptor.placed {ρ : Type} (scope : String) (outer : Option String) (path : List Int) :
    MessageDescriptor ρ → List (Placed (MessageDescriptor ρ))
  | m@⟨name, _, _, nested, _, _, _, _, _⟩ =>
    let fullName := qualifiedName scope name
    { element := m, fullName, outer, path } ::
      MessageDescriptor.placedFrom fullName (some fullName) (path ++ [3]) 0 nested

/-- The messages of a list and those nested in them; `base` is the path of the list and `i` the
position of the first. -/
def MessageDescriptor.placedFrom {ρ : Type} (scope : String) (outer : Option String)
    (base : List Int) (i : Nat) : List (MessageDescriptor ρ) → List (Placed (MessageDescriptor ρ))
  | [] => []
  | m :: ms =>
    MessageDescriptor.placed scope outer (base ++ [(i : Int)]) m ++
      MessageDescriptor.placedFrom scope outer base (i + 1) ms

end

namespace FileDescriptor

variable {ρ : Type}

/-- All messages of a file, each ahead of those nested in it. -/
def placedMessages (f : FileDescriptor ρ) : List (Placed (MessageDescriptor ρ)) :=
  MessageDescriptor.placedFrom f.package none [4] 0 f.messages

/-- The enumerations of a scope. -/
def placeEnums (scope : String) (outer : Option String) (base : List Int)
    (enums : List EnumDescriptor) : List (Placed EnumDescriptor) :=
  enums.zipIdx.map fun (e, i) =>
    { element := e, fullName := qualifiedName scope e.name, outer, path := base ++ [(i : Int)] }

/-- All enumerations of a file. -/
def placedEnums (f : FileDescriptor ρ) : List (Placed EnumDescriptor) :=
  f.placedMessages.flatMap (fun m =>
    placeEnums m.fullName (some m.fullName) (m.path ++ [4]) m.element.enums) ++
    placeEnums f.package none [5] f.enums

/-- The services of a file. -/
def placedServices (f : FileDescriptor ρ) : List (Placed ServiceDescriptor) :=
  f.services.zipIdx.map fun (s, i) =>
    { element := s, fullName := qualifiedName f.package s.name, path := [6, (i : Int)] }

end FileDescriptor

end ApiModel
