import ApiModel.Proofs.Schema.Model
import ApiModel.Proofs.Selection
import Mathlib.Data.List.Pairwise

/-!
# References of the model of a coherent schema

What the elements of the raw model refer to is what the descriptors name, and a coherent schema
declares every name.

Principal results:

* `resolved_toApi` — the raw model is resolved;
* `methodsOwned_toApi` — no two services list the same method.
-/

namespace ApiModel

namespace Schema

variable {schema : Schema} {package : String} {file : FileDescriptor FieldType}
  {files : List (FileDescriptor FieldType)}

/-! ## Elements of the inventory -/

theorem mem_inventory_messages {m : Message} :
    m ∈ (schema.inventory package files).messages ↔
      ∃ file ∈ files, m ∈ (schema.contribution file package).messages := by
  rw [messages_inventory, List.mem_flatMap]

theorem mem_inventory_enums {e : Enumeration} :
    e ∈ (schema.inventory package files).enums ↔ ∃ file ∈ files, e ∈ schema.enumsOf file := by
  rw [enums_inventory, List.mem_flatMap]

theorem mem_inventory_services {s : Service} :
    s ∈ (schema.inventory package files).services ↔
      ∃ file ∈ files, s ∈ (schema.contribution file package).services := by
  rw [services_inventory, List.mem_flatMap]

theorem mem_inventory_methods {m : Method} :
    m ∈ (schema.inventory package files).methods ↔
      ∃ file ∈ files, m ∈ (schema.contribution file package).methods := by
  rw [methods_inventory, List.mem_flatMap]

/-- A message is that of a descriptor, but for what is nested in it. -/
theorem exists_placed_of_message {m : Message}
    (h : m ∈ (schema.contribution file package).messages) :
    ∃ p ∈ file.placedMessages, m.fields = schema.toFields file p ∧ m.oneOfs = toOneOfs file p := by
  unfold contribution nestedMessagesOf at h
  split at h
  · obtain ⟨bare, hbare, rfl⟩ := List.mem_map.1 h
    obtain ⟨p, hp, rfl⟩ := List.mem_map.1 hbare
    exact ⟨p, hp, rfl, rfl⟩
  · obtain ⟨p, hp, rfl⟩ := List.mem_map.1 h
    exact ⟨p, hp, rfl, rfl⟩

/-- A service is contributed with its methods. -/
theorem exists_pair_of_service {s : Service}
    (h : s ∈ (schema.contribution file package).services) :
    ∃ x ∈ schema.servicesOf file, s = x.1.listing x.2 ∧
      ∀ m ∈ x.2, m ∈ (schema.contribution file package).methods := by
  unfold contribution at h ⊢
  split at h
  · rename_i hpackage
    obtain ⟨x, hx, rfl⟩ := List.mem_map.1 h
    refine ⟨x, hx, rfl, ?_⟩
    intro m hm
    rw [if_pos hpackage]
    exact List.mem_flatMap.2 ⟨x, hx, hm⟩
  · simp at h

/-- A method refers to what its descriptor names. -/
theorem exists_descriptor_of_method {m : Method}
    (h : m ∈ (schema.contribution file package).methods) :
    ∃ s ∈ file.services, ∃ d ∈ s.methods,
      m.inputTypeId = elementId d.input ∧ m.outputTypeId = elementId d.output := by
  have hmethods : m ∈ (schema.servicesOf file).flatMap (·.2) := by
    unfold contribution at h
    split at h
    · exact h
    · simp at h
  obtain ⟨x, hx, hm⟩ := List.mem_flatMap.1 hmethods
  obtain ⟨p, hp, rfl⟩ := List.mem_map.1 hx
  dsimp only at hm
  cases hok : schema.toMethods file p with
  | error e =>
    rw [hok] at hm
    cases hm
  | ok methods =>
    rw [hok] at hm
    obtain ⟨d, hd, hmethod⟩ := exists_of_mapM hok hm
    have hmember : d.1 ∈ p.element.methods := by
      rw [← p.map_fst_members 2 p.element.methods]
      exact List.mem_map_of_mem hd
    exact ⟨p.element, FileDescriptor.mem_services hp, d.1, hmember,
      (references_toMethod hmethod).2⟩

/-! ## Messages -/

/-- A field has the kind and the type that its descriptor names. -/
theorem exists_descriptor_of_field {p : Placed (MessageDescriptor FieldType)} {f : Field}
    (h : f ∈ schema.toFields file p) :
    ∃ d ∈ p.element.fields, f.kind = (kindOf d.type).1 ∧ f.typeId = (kindOf d.type).2 := by
  obtain ⟨x, hx, rfl⟩ := List.mem_map.1 h
  have hmember : x.1 ∈ p.element.fields := by
    rw [← p.map_fst_members 2 p.element.fields]
    exact List.mem_map_of_mem (List.mem_mergeSort.1 hx)
  exact ⟨x.1, hmember, rfl, rfl⟩

/-- Every field of the descriptor is a field of the message. -/
theorem exists_field_of_descriptor (schema : Schema) (file : FileDescriptor FieldType)
    {p : Placed (MessageDescriptor FieldType)} {d : FieldDescriptor FieldType}
    (hd : d ∈ p.element.fields) :
    ∃ f ∈ schema.toFields file p, f.id = elementId (qualifiedName p.fullName d.name) := by
  rw [← p.map_fst_members 2 p.element.fields] at hd
  obtain ⟨x, hx, rfl⟩ := List.mem_map.1 hd
  exact ⟨_, List.mem_map_of_mem (List.mem_mergeSort.2 hx), rfl⟩

/-- The members of a one-of are fields of the descriptor. -/
theorem exists_descriptor_of_member {p : Placed (MessageDescriptor FieldType)} {o : OneOf}
    (ho : o ∈ toOneOfs file p) {id : String} (hid : id ∈ o.fields) :
    ∃ d ∈ p.element.fields, id = elementId (qualifiedName p.fullName d.name) := by
  obtain ⟨x, -, rfl⟩ := List.mem_map.1 ho
  obtain ⟨d, hd, rfl⟩ := List.mem_map.1 hid
  exact ⟨d, (List.mem_filter.1 hd).1, rfl⟩

theorem kindOf_message {type : FieldType} (hknown : schema.Knows type)
    (h : (kindOf type).1 = .message) :
    ∃ fullName ∈ schema.messageNames, (kindOf type).2 = elementId fullName := by
  cases type with
  | scalar kind => exact absurd h hknown.1
  | message fullName => exact ⟨fullName, hknown, rfl⟩
  | group fullName => exact ⟨fullName, hknown, rfl⟩
  | enumeration fullName => cases h

theorem kindOf_enumeration {type : FieldType} (hknown : schema.Knows type)
    (h : (kindOf type).1 = .enumeration) :
    ∃ fullName ∈ schema.enumNames, (kindOf type).2 = elementId fullName := by
  cases type with
  | scalar kind => exact absurd h hknown.2
  | message fullName => cases h
  | group fullName => cases h
  | enumeration fullName => exact ⟨fullName, hknown, rfl⟩

/-! ## Methods of services -/

/-- The methods of the inventory are those that its services list. -/
theorem map_id_methods (schema : Schema) (package : String)
    (files : List (FileDescriptor FieldType)) :
    (schema.inventory package files).methods.map (·.id) =
      (schema.inventory package files).services.flatMap (·.methods) := by
  have hfile : ∀ file, (schema.contribution file package).methods.map (·.id) =
      (schema.contribution file package).services.flatMap (·.methods) := by
    intro file
    unfold contribution
    split
    · dsimp only
      rw [List.map_flatMap, List.flatMap_map]
      rfl
    · rfl
  rw [methods_inventory, services_inventory, List.map_flatMap, List.flatMap_assoc]
  simp only [hfile]

/-! ## The raw model -/

section RawModel

variable {raw : Api} {choice : Option String} (hcoherent : schema.Coherent)
  (h : schema.toApi choice = .ok raw)

include hcoherent h

/-- The registered messages are the declared ones. -/
theorem contains_message_iff {fullName : String} :
    raw.registry.messages.contains (elementId fullName) = true ↔
      fullName ∈ schema.messageNames := by
  rw [(holds_toApi hcoherent.namesUnique h).messages.contains_iff, map_id_inventory_messages,
    List.mem_map_of_injective elementId_injective]
  rfl

theorem contains_enum_iff {fullName : String} :
    raw.registry.enums.contains (elementId fullName) = true ↔ fullName ∈ schema.enumNames := by
  rw [(holds_toApi hcoherent.namesUnique h).enums.contains_iff,
    (map_id_inventory_enums_perm schema.files).mem_iff,
    List.mem_map_of_injective elementId_injective]
  rfl

theorem messagesResolve_toApi : raw.MessagesResolve := by
  intro id m hm
  have hinventory := (((holds_toApi hcoherent.namesUnique h).messages id m).1 hm).1
  obtain ⟨file, hfile, hcontribution⟩ := mem_inventory_messages.1 hinventory
  obtain ⟨p, hp, hfields, honeOfs⟩ := exists_placed_of_message hcontribution
  have hdeclared : (p.fullName, p.element) ∈ file.allMessages := by
    rw [← FileDescriptor.placedMessages_map]
    exact List.mem_map_of_mem hp
  refine ⟨?_, ?_, ?_⟩
  · intro f hf hkind
    rw [hfields] at hf
    obtain ⟨d, hd, hdkind, htype⟩ := exists_descriptor_of_field hf
    have hknown := hcoherent.fields file hfile _ hdeclared d hd
    obtain ⟨fullName, hname, hid⟩ := kindOf_message hknown (hdkind.symm.trans hkind)
    rw [htype, hid, contains_message_iff hcoherent h]
    exact hname
  · intro f hf hkind
    rw [hfields] at hf
    obtain ⟨d, hd, hdkind, htype⟩ := exists_descriptor_of_field hf
    have hknown := hcoherent.fields file hfile _ hdeclared d hd
    obtain ⟨fullName, hname, hid⟩ := kindOf_enumeration hknown (hdkind.symm.trans hkind)
    rw [htype, hid, contains_enum_iff hcoherent h]
    exact hname
  · intro o ho id hid
    rw [honeOfs] at ho
    rw [hfields]
    obtain ⟨d, hd, rfl⟩ := exists_descriptor_of_member ho hid
    exact exists_field_of_descriptor schema file hd

theorem methodsResolve_toApi : raw.MethodsResolve := by
  intro id m hm
  have hinventory := (((holds_toApi hcoherent.namesUnique h).methods id m).1 hm).1
  obtain ⟨file, hfile, hcontribution⟩ := mem_inventory_methods.1 hinventory
  obtain ⟨s, hs, d, hd, hinput, houtput⟩ := exists_descriptor_of_method hcontribution
  obtain ⟨hrequest, hresponse⟩ := hcoherent.methods file hfile s hs d hd
  refine ⟨?_, ?_⟩
  · rw [hinput, contains_message_iff hcoherent h]
    exact hrequest
  · rw [houtput, contains_message_iff hcoherent h]
    exact hresponse

theorem servicesResolve_toApi : raw.ServicesResolve := by
  have hholds := holds_toApi hcoherent.namesUnique h
  intro id s hs listed hlisted
  have hinventory := ((hholds.services id s).1 hs).1
  obtain ⟨file, hfile, hcontribution⟩ := mem_inventory_services.1 hinventory
  obtain ⟨x, hx, rfl, hmethods⟩ := exists_pair_of_service hcontribution
  obtain ⟨m, hm, rfl⟩ := List.mem_map.1 hlisted
  rw [hholds.methods.contains_iff]
  exact List.mem_map_of_mem (mem_inventory_methods.2 ⟨file, hfile, hmethods m hm⟩)

/-- **The raw model is resolved.** -/
theorem resolved_toApi : raw.Resolved :=
  ⟨messagesResolve_toApi hcoherent h, methodsResolve_toApi hcoherent h,
    servicesResolve_toApi hcoherent h⟩

/-- No two services list the same method. -/
theorem methodsOwned_toApi : raw.MethodsOwned := by
  have hholds := holds_toApi hcoherent.namesUnique h
  have hdistinct := distinct_inventory hcoherent.namesUnique (choice.getD schema.sourcePackage)
  have hnodup := hdistinct.methods
  rw [map_id_methods, List.nodup_flatMap] at hnodup
  intro i j a b ha hb id hida hidb
  obtain ⟨hmema, rfl⟩ := (hholds.services i a).1 ha
  obtain ⟨hmemb, rfl⟩ := (hholds.services j b).1 hb
  have hsymm : Std.Symm (Function.onFun List.Disjoint fun s : Service => s.methods) :=
    ⟨fun _ _ hab _ hb ha => hab ha hb⟩
  by_contra hne
  have hdisjoint := hnodup.2.forall hmema hmemb fun hab => hne (hab ▸ rfl)
  exact hdisjoint hida hidb

end RawModel

end Schema

end ApiModel
