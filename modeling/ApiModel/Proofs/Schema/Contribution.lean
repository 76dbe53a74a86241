import ApiModel.Proofs.Answer
import ApiModel.Proofs.Inventory
import ApiModel.Proofs.Schema.Coherent
import ApiModel.Schema.Model
import Mathlib.Data.List.Nodup
import Mathlib.Data.List.Perm.Basic

/-!
# What files contribute to a model

A file of the package contributes its messages, with what is nested in them listed, its enumerations
and its services with their methods; a file of another package, its messages and enumerations as they
are.

Principal result: `distinct_inventory` — with unique names all these have IDs that differ.
-/

namespace ApiModel

namespace Schema

variable {schema : Schema} {package : String}

/-! ## What a file contributes -/

section File

variable (schema : Schema) (file : FileDescriptor FieldType)

def messagesOf : List Message := file.placedMessages.map (schema.toMessage file)

def enumsOf : List Enumeration := file.placedEnums.map (schema.toEnumeration file)

/-- The services of a file with their methods; of a service with a bad path, none. -/
def servicesOf : List (Service × List Method) :=
  file.placedServices.map fun s =>
    (schema.toService file s, (schema.toMethods file s).toOption.getD [])

/-- The messages of a file of the package, with what is nested in them listed. -/
def nestedMessagesOf : List Message :=
  (schema.messagesOf file).map fun m =>
    (m.withChildren (schema.messagesOf file)).withEnums (schema.enumsOf file)

/-- What a file adds to the registry of the model of a package. -/
def contribution (package : String) : Inventory :=
  if file.package = package then
    { messages := schema.nestedMessagesOf file
      enums := schema.enumsOf file
      services := (schema.servicesOf file).map fun x => x.1.listing x.2
      methods := (schema.servicesOf file).flatMap (·.2) }
  else { messages := schema.messagesOf file, enums := schema.enumsOf file }

end File

/-- What some files add to the registry of the model of a package. -/
def inventory (schema : Schema) (package : String) :
    List (FileDescriptor FieldType) → Inventory
  | [] => {}
  | file :: rest => (schema.contribution file package).append (schema.inventory package rest)

/-! ## Parts of the inventory -/

/-- The inventory has what the files contribute, one after another. -/
theorem part_inventory {α : Type} (part : Inventory → List α) (hempty : part {} = [])
    (happend : ∀ a b, part (a.append b) = part a ++ part b)
    (files : List (FileDescriptor FieldType)) :
    part (schema.inventory package files) =
      files.flatMap fun file => part (schema.contribution file package) := by
  induction files with
  | nil => exact hempty
  | cons file rest ih =>
    unfold inventory
    rw [happend, ih, List.flatMap_cons]

theorem messages_inventory (files : List (FileDescriptor FieldType)) :
    (schema.inventory package files).messages =
      files.flatMap fun file => (schema.contribution file package).messages :=
  part_inventory (·.messages) rfl (fun _ _ => rfl) files

theorem enums_inventory (files : List (FileDescriptor FieldType)) :
    (schema.inventory package files).enums = files.flatMap schema.enumsOf := by
  have hfile : ∀ file, (schema.contribution file package).enums = schema.enumsOf file := by
    intro file
    unfold contribution
    split <;> rfl
  rw [part_inventory (·.enums) rfl (fun _ _ => rfl) files]
  simp only [hfile]

theorem services_inventory (files : List (FileDescriptor FieldType)) :
    (schema.inventory package files).services =
      files.flatMap fun file => (schema.contribution file package).services :=
  part_inventory (·.services) rfl (fun _ _ => rfl) files

theorem methods_inventory (files : List (FileDescriptor FieldType)) :
    (schema.inventory package files).methods =
      files.flatMap fun file => (schema.contribution file package).methods :=
  part_inventory (·.methods) rfl (fun _ _ => rfl) files

/-! ## IDs -/

theorem elementId_injective : Function.Injective elementId := by
  intro a b h
  simpa [elementId] using h

theorem map_id_messagesOf (schema : Schema) (file : FileDescriptor FieldType) :
    (schema.messagesOf file).map (·.id) = file.messageNames.map elementId := by
  unfold FileDescriptor.messageNames messagesOf
  rw [← FileDescriptor.placedMessages_map]
  simp [Function.comp_def, toMessage]

theorem map_id_contribution_messages (schema : Schema) (package : String)
    (file : FileDescriptor FieldType) :
    (schema.contribution file package).messages.map (·.id) = file.messageNames.map elementId := by
  rw [← map_id_messagesOf schema]
  unfold contribution nestedMessagesOf
  split
  · simp [Function.comp_def, Message.withChildren, Message.withEnums]
  · rfl

theorem map_id_enumsOf_perm (schema : Schema) (file : FileDescriptor FieldType) :
    ((schema.enumsOf file).map (·.id)).Perm (file.enumNames.map elementId) := by
  have hperm := file.placedEnums_perm.map elementId
  unfold enumsOf
  rw [List.map_map] at hperm ⊢
  exact hperm

theorem map_id_servicesOf (schema : Schema) (file : FileDescriptor FieldType) :
    (schema.servicesOf file).map (·.1.id) = file.serviceNames.map elementId := by
  have hnames : file.serviceNames =
      (file.placedServices.map fun s => (s.fullName, s.element)).map Prod.fst := by
    rw [FileDescriptor.map_placedServices, List.map_map]
    rfl
  unfold servicesOf
  rw [hnames, List.map_map, List.map_map, List.map_map]
  rfl

/-- A method refers to its request and its response by the IDs of their messages. -/
theorem references_toMethod {file : FileDescriptor FieldType} {scope : String}
    {m : MethodDescriptor} {path : List Int} {method : Method}
    (h : schema.toMethod file scope m path = .ok method) :
    method.id = elementId (qualifiedName scope m.name) ∧
      method.inputTypeId = elementId m.input ∧ method.outputTypeId = elementId m.output := by
  unfold toMethod at h
  dsimp only at h
  split at h
  · obtain ⟨pathInfo, -, h⟩ := bind_eq_ok_iff.1 h
    cases h
    exact ⟨rfl, rfl, rfl⟩
  · cases h
    exact ⟨rfl, rfl, rfl⟩

/-- The methods of a service have the names that the service declares. -/
theorem map_id_toMethods {file : FileDescriptor FieldType} {s : Placed ServiceDescriptor}
    {methods : List Method} (h : schema.toMethods file s = .ok methods) :
    methods.map (·.id) =
      s.element.methods.map fun m => elementId (qualifiedName s.fullName m.name) := by
  have hstep : ∀ (x : MethodDescriptor × List Int) m,
      schema.toMethod file s.fullName x.1 x.2 = .ok m →
        m.id = elementId (qualifiedName s.fullName x.1.name) :=
    fun x m hm => (references_toMethod hm).1
  have hmembers := congrArg (List.map fun m : MethodDescriptor =>
    elementId (qualifiedName s.fullName m.name)) (s.map_fst_members 2 s.element.methods)
  rw [List.map_map] at hmembers
  unfold toMethods at h
  rw [← hmembers]
  exact map_eq_of_mapM _ (·.id) h fun x _ => hstep x

/-- The methods that a file contributes have names that it declares. -/
theorem map_id_methods_sublist (file : FileDescriptor FieldType) :
    ((schema.servicesOf file).flatMap fun x => x.2.map (·.id)).Sublist
      (file.methodNames.map elementId) := by
  have hservices : file.methodNames = (file.placedServices.map fun s =>
      (s.fullName, s.element)).flatMap fun x => x.2.methods.map fun m => qualifiedName x.1 m.name := by
    rw [FileDescriptor.map_placedServices, List.flatMap_map]
    rfl
  rw [hservices, List.map_flatMap, List.flatMap_map]
  unfold servicesOf
  rw [List.flatMap_map]
  refine List.Sublist.flatMap_right _ fun s _ => ?_
  dsimp only
  cases h : schema.toMethods file s with
  | error e => exact List.nil_sublist _
  | ok methods =>
    show (methods.map (·.id)).Sublist _
    rw [map_id_toMethods h, List.map_map]
    rfl

/-! ## IDs of all files -/

theorem map_id_inventory_messages (files : List (FileDescriptor FieldType)) :
    (schema.inventory package files).messages.map (·.id) =
      (files.flatMap (·.messageNames)).map elementId := by
  rw [messages_inventory, List.map_flatMap, List.map_flatMap]
  simp only [map_id_contribution_messages]

theorem map_id_inventory_enums_perm (files : List (FileDescriptor FieldType)) :
    ((schema.inventory package files).enums.map (·.id)).Perm
      ((files.flatMap (·.enumNames)).map elementId) := by
  rw [enums_inventory, List.map_flatMap, List.map_flatMap]
  exact List.Perm.flatMap_left files fun file _ => map_id_enumsOf_perm schema file

theorem map_id_inventory_services_sublist (files : List (FileDescriptor FieldType)) :
    ((schema.inventory package files).services.map (·.id)).Sublist
      ((files.flatMap (·.serviceNames)).map elementId) := by
  rw [services_inventory, List.map_flatMap, List.map_flatMap]
  refine List.Sublist.flatMap_right files fun file _ => ?_
  unfold contribution
  split
  · rw [← map_id_servicesOf schema, List.map_map]
    exact .refl _
  · exact List.nil_sublist _

theorem map_id_inventory_methods_sublist (files : List (FileDescriptor FieldType)) :
    ((schema.inventory package files).methods.map (·.id)).Sublist
      ((files.flatMap (·.methodNames)).map elementId) := by
  rw [methods_inventory, List.map_flatMap, List.map_flatMap]
  refine List.Sublist.flatMap_right files fun file _ => ?_
  unfold contribution
  split
  · dsimp only
    rw [List.map_flatMap]
    exact map_id_methods_sublist file
  · exact List.nil_sublist _

/-- With unique names no two elements of a kind have the same ID. -/
theorem distinct_inventory (h : schema.NamesUnique) (package : String) :
    (schema.inventory package schema.files).Distinct := by
  refine ⟨?_, ?_, ?_, ?_⟩
  · rw [map_id_inventory_messages]
    exact h.nodup_messageNames.map elementId_injective
  · exact (map_id_inventory_enums_perm _).nodup_iff.2 (h.nodup_enumNames.map elementId_injective)
  · have hnames := h.nodup_names _ FileDescriptor.serviceNames_sublist
    exact (hnames.map elementId_injective).sublist (map_id_inventory_services_sublist _)
  · have hnames := h.nodup_names _ FileDescriptor.methodNames_sublist
    exact (hnames.map elementId_injective).sublist (map_id_inventory_methods_sublist _)

end Schema

end ApiModel
