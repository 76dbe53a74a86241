import ApiModel.Proofs.Schema.Coherent

/-!
# Outlines of descriptors

The outline of a file has the names of what it declares and nothing else.

Principal result: `declarations_outline` — the declarations of a file are those of its outline.
-/

namespace ApiModel

variable {ρ : Type}

/-! ## Outlines -/

def FieldDescriptor.outline (f : FieldDescriptor ρ) : FieldDescriptor Unit :=
  { name := f.name, type := () }

def EnumValueDescriptor.outline (v : EnumValueDescriptor) : EnumValueDescriptor :=
  { name := v.name }

def EnumDescriptor.outline (e : EnumDescriptor) : EnumDescriptor :=
  { name := e.name, values := e.values.map (·.outline) }

def OneofDescriptor.outline (o : OneofDescriptor) : OneofDescriptor := { name := o.name }

def MethodDescriptor.outline (m : MethodDescriptor) : MethodDescriptor := { name := m.name }

def ServiceDescriptor.outline (s : ServiceDescriptor) : ServiceDescriptor :=
  { name := s.name, methods := s.methods.map (·.outline) }

mutual

/-- The message with the names of its members and of what is nested in it. -/
def MessageDescriptor.outline : MessageDescriptor ρ → MessageDescriptor Unit
  | ⟨name, fields, extensions, nested, enums, _, _, oneofs, _⟩ =>
    { name
      fields := fields.map (·.outline)
      extensions := extensions.map (·.outline)
      nested := MessageDescriptor.outlines nested
      enums := enums.map (·.outline)
      oneofs := oneofs.map (·.outline) }

def MessageDescriptor.outlines : List (MessageDescriptor ρ) → List (MessageDescriptor Unit)
  | [] => []
  | m :: ms => m.outline :: MessageDescriptor.outlines ms

end

/-- The names of what a file declares. -/
def FileDescriptor.outline (f : FileDescriptor ρ) : FileDescriptor Unit :=
  { package := f.package
    messages := MessageDescriptor.outlines f.messages
    enums := f.enums.map (·.outline)
    services := f.services.map (·.outline)
    extensions := f.extensions.map (·.outline) }

/-! ## Nested messages and their extensions -/

mutual

theorem withNested_outline (scope : String) : ∀ m : MessageDescriptor ρ,
    m.outline.withNested scope = (m.withNested scope).map fun p => (p.1, p.2.outline)
  | ⟨name, _, _, nested, _, _, _, _, _⟩ => by
    have hnested := allNested_outlines (qualifiedName scope name) nested
    simp [MessageDescriptor.outline, MessageDescriptor.withNested, hnested]

theorem allNested_outlines (scope : String) : ∀ ms : List (MessageDescriptor ρ),
    MessageDescriptor.allNested scope (MessageDescriptor.outlines ms) =
      (MessageDescriptor.allNested scope ms).map fun p => (p.1, p.2.outline)
  | [] => rfl
  | m :: ms => by
    have hm := withNested_outline scope m
    have hms := allNested_outlines scope ms
    simp [MessageDescriptor.outlines, MessageDescriptor.allNested, hm, hms]

end

mutual

theorem scopedExtensions_outline (scope : String) : ∀ m : MessageDescriptor ρ,
    m.outline.scopedExtensions scope = (m.scopedExtensions scope).map fun p => (p.1, p.2.outline)
  | ⟨name, _, extensions, nested, _, _, _, _, _⟩ => by
    have hnested := nestedExtensions_outlines (qualifiedName scope name) nested
    simp [MessageDescriptor.outline, MessageDescriptor.scopedExtensions, hnested]

theorem nestedExtensions_outlines (scope : String) : ∀ ms : List (MessageDescriptor ρ),
    MessageDescriptor.nestedExtensions scope (MessageDescriptor.outlines ms) =
      (MessageDescriptor.nestedExtensions scope ms).map fun p => (p.1, p.2.outline)
  | [] => rfl
  | m :: ms => by
    have hm := scopedExtensions_outline scope m
    have hms := nestedExtensions_outlines scope ms
    simp [MessageDescriptor.outlines, MessageDescriptor.nestedExtensions, hm, hms]

end

/-! ## Declarations -/

theorem MessageDescriptor.declarations_outline (fullName : String) (m : MessageDescriptor ρ) :
    m.outline.declarations fullName = m.declarations fullName := by
  cases m
  simp [MessageDescriptor.outline, MessageDescriptor.declarations, FieldDescriptor.outline,
    OneofDescriptor.outline, Function.comp_def]

theorem EnumDescriptor.declarations_outline (scope : String) (e : EnumDescriptor) :
    e.outline.declarations scope = e.declarations scope := by
  simp [EnumDescriptor.outline, EnumDescriptor.declarations, EnumValueDescriptor.outline,
    Function.comp_def]

theorem ServiceDescriptor.declarations_outline (scope : String) (s : ServiceDescriptor) :
    s.outline.declarations scope = s.declarations scope := by
  simp [ServiceDescriptor.outline, ServiceDescriptor.declarations, MethodDescriptor.outline,
    Function.comp_def]

namespace FileDescriptor

variable (f : FileDescriptor ρ)

theorem allMessages_outline :
    f.outline.allMessages = f.allMessages.map fun p => (p.1, p.2.outline) :=
  allNested_outlines f.package f.messages

theorem allEnums_outline :
    f.outline.allEnums = f.allEnums.map fun p => (p.1, p.2.outline) := by
  have henums : ∀ m : MessageDescriptor ρ, m.outline.enums = m.enums.map (·.outline) := by
    intro m
    cases m
    rfl
  unfold allEnums
  rw [allMessages_outline]
  simp [outline, henums, List.flatMap_map, List.map_flatMap, Function.comp_def]

theorem allExtensions_outline :
    f.outline.allExtensions = f.allExtensions.map fun p => (p.1, p.2.outline) := by
  have hnested := nestedExtensions_outlines f.package f.messages
  simp [allExtensions, outline, hnested]

/-- **The declarations of a file are those of its outline.** -/
theorem declarations_outline : f.outline.declarations = f.declarations := by
  have hservices : f.outline.services = f.services.map (·.outline) := rfl
  unfold declarations
  rw [allMessages_outline, allEnums_outline, allExtensions_outline, hservices]
  simp only [List.flatMap_map, List.map_map, MessageDescriptor.declarations_outline,
    EnumDescriptor.declarations_outline, ServiceDescriptor.declarations_outline]
  rfl

theorem declaredNames_outline : f.outline.declaredNames = f.declaredNames := by
  unfold declaredNames
  rw [declarations_outline]

end FileDescriptor

end ApiModel
