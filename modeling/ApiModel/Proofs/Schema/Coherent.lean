import ApiModel.Proofs.Schema.Place
import ApiModel.Schema.Name
import Mathlib.Data.List.Flatten
import Mathlib.Tactic.MkIffOfInductiveProp

/-!
# Coherent schemas

What a descriptor pool guarantees of the files it holds: full names are declared once, packages
apart, and the types of fields and methods are declared in one of the files.

Principal results: `NamesUnique.nodup_messageNames` and its kin — the names of each kind of element
differ across all files.
-/

namespace ApiModel

namespace FileDescriptor

variable {ρ : Type}

/-- The full names that a file declares, apart from packages. -/
def declaredNames (f : FileDescriptor ρ) : List String :=
  (f.declarations.filter (·.2 != .package)).map Prod.fst

def messageNames (f : FileDescriptor ρ) : List String := f.allMessages.map Prod.fst

def enumNames (f : FileDescriptor ρ) : List String :=
  f.allEnums.map fun (scope, e) => qualifiedName scope e.name

def serviceNames (f : FileDescriptor ρ) : List String :=
  f.services.map fun s => qualifiedName f.package s.name

def methodNames (f : FileDescriptor ρ) : List String :=
  f.services.flatMap fun s =>
    s.methods.map fun m => qualifiedName (qualifiedName f.package s.name) m.name

/-! ## Names among the declared ones -/

/-- The names of one kind of element are among those of the file, if its declarations are. -/
theorem sublist_declaredNames {α : Type} {f : FileDescriptor ρ} {elements : List α}
    (declare : α → List Declaration) (names : α → List String)
    (hfile : (elements.flatMap declare).Sublist f.declarations)
    (hnames : ∀ a ∈ elements, (names a).Sublist
      (((declare a).filter (·.2 != .package)).map Prod.fst)) :
    (elements.flatMap names).Sublist f.declaredNames := by
  have hflat := List.Sublist.flatMap_right elements hnames
  rw [← List.map_flatMap, ← List.filter_flatMap] at hflat
  exact hflat.trans ((hfile.filter _).map _)

theorem messageNames_sublist (f : FileDescriptor ρ) : f.messageNames.Sublist f.declaredNames := by
  unfold messageNames
  rw [List.map_eq_flatMap]
  refine sublist_declaredNames (fun x => x.2.declarations x.1) _ ?_ ?_
  · unfold declarations
    refine .trans ?_ (List.sublist_append_left _ _)
    refine .trans ?_ (List.sublist_append_left _ _)
    refine .trans ?_ (List.sublist_append_left _ _)
    exact List.sublist_append_right _ _
  · intro x _
    simp [MessageDescriptor.declarations]

theorem enumNames_sublist (f : FileDescriptor ρ) : f.enumNames.Sublist f.declaredNames := by
  unfold enumNames
  rw [List.map_eq_flatMap]
  refine sublist_declaredNames (fun x => x.2.declarations x.1) _ ?_ ?_
  · unfold declarations
    refine .trans ?_ (List.sublist_append_left _ _)
    refine .trans ?_ (List.sublist_append_left _ _)
    exact List.sublist_append_right _ _
  · intro x _
    simp [EnumDescriptor.declarations]

theorem serviceNames_sublist (f : FileDescriptor ρ) : f.serviceNames.Sublist f.declaredNames := by
  unfold serviceNames
  rw [List.map_eq_flatMap]
  refine sublist_declaredNames (·.declarations f.package) _ ?_ ?_
  · exact List.sublist_append_right _ _
  · intro s _
    simp [ServiceDescriptor.declarations]

theorem methodNames_sublist (f : FileDescriptor ρ) : f.methodNames.Sublist f.declaredNames := by
  unfold methodNames
  refine sublist_declaredNames (·.declarations f.package) _ ?_ ?_
  · exact List.sublist_append_right _ _
  · intro s _
    have hmethods : ∀ d ∈ s.methods.map fun m =>
        (qualifiedName (qualifiedName f.package s.name) m.name, DefinitionKind.other),
        (d.2 != .package) = true := by
      intro d hd
      obtain ⟨m, -, rfl⟩ := List.mem_map.1 hd
      rfl
    unfold ServiceDescriptor.declarations
    rw [List.filter_cons_of_pos (by rfl), List.filter_eq_self.2 hmethods]
    simp [Function.comp_def]

end FileDescriptor

/-! ## Coherence -/

namespace Schema

def messageNames (schema : Schema) : List String := schema.files.flatMap (·.messageNames)

def enumNames (schema : Schema) : List String := schema.files.flatMap (·.enumNames)

/-- The type is declared, if it is no scalar; a scalar has a kind of its own. -/
def Knows (schema : Schema) : FieldType → Prop
  | .scalar kind => kind ≠ .message ∧ kind ≠ .enumeration
  | .message fullName | .group fullName => fullName ∈ schema.messageNames
  | .enumeration fullName => fullName ∈ schema.enumNames

instance (schema : Schema) : DecidablePred schema.Knows := fun type =>
  match type with
  | .scalar kind => inferInstanceAs (Decidable (kind ≠ .message ∧ kind ≠ .enumeration))
  | .message fullName => inferInstanceAs (Decidable (fullName ∈ schema.messageNames))
  | .group fullName => inferInstanceAs (Decidable (fullName ∈ schema.messageNames))
  | .enumeration fullName => inferInstanceAs (Decidable (fullName ∈ schema.enumNames))

/-- What a descriptor pool guarantees of its files. -/
@[mk_iff]
structure Coherent (schema : Schema) : Prop where
  /-- Full names are declared once. -/
  unique : (schema.files.flatMap (·.declaredNames)).Nodup
  /-- The types of fields are declared. -/
  fields : ∀ f ∈ schema.files, ∀ m ∈ f.allMessages, ∀ field ∈ m.2.fields, schema.Knows field.type
  /-- The requests and the responses of methods are declared. -/
  methods : ∀ f ∈ schema.files, ∀ s ∈ f.services, ∀ m ∈ s.methods,
    m.input ∈ schema.messageNames ∧ m.output ∈ schema.messageNames

instance (schema : Schema) : Decidable schema.Coherent :=
  decidable_of_iff' _ (coherent_iff schema)

/-- Full names are declared once. -/
def NamesUnique (schema : Schema) : Prop := (schema.files.flatMap (·.declaredNames)).Nodup

instance (schema : Schema) : Decidable schema.NamesUnique :=
  inferInstanceAs (Decidable (schema.files.flatMap (·.declaredNames)).Nodup)

namespace NamesUnique

variable {schema : Schema}

/-- Names of one kind differ across all files, if each file declares them. -/
theorem nodup_names (h : schema.NamesUnique) (names : FileDescriptor FieldType → List String)
    (hsub : ∀ f, (names f).Sublist f.declaredNames) : (schema.files.flatMap names).Nodup :=
  h.sublist (List.Sublist.flatMap_right _ fun f _ => hsub f)

theorem nodup_messageNames (h : schema.NamesUnique) : schema.messageNames.Nodup :=
  h.nodup_names _ FileDescriptor.messageNames_sublist

theorem nodup_enumNames (h : schema.NamesUnique) : schema.enumNames.Nodup :=
  h.nodup_names _ FileDescriptor.enumNames_sublist

end NamesUnique

theorem Coherent.namesUnique {schema : Schema} (h : schema.Coherent) : schema.NamesUnique := h.unique

end Schema

end ApiModel
