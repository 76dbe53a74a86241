import ApiModel.Proofs.Schema.Model
import ApiModel.Proofs.Schema.Nesting
import ApiModel.Specification
import Mathlib.Data.List.Pairwise

/-!
# Nothing is lost on the way to a model

A raw model registers every message and every enumeration of a schema and lists those of one package,
each where it is declared.

Principal results:

* `Schema.complete_toApi` — with unique names the model of a package is complete;
* `Specification.complete_toApi` — **so is the raw model of a specification**.
-/

namespace ApiModel

/-- The message under a full name is that of a descriptor. -/
structure Api.Describes (api : Api) (package fullName : String) (d : MessageDescriptor FieldType) :
    Prop where
  message : ∃ m, api.message? (elementId fullName) = some m ∧ m.name = d.name ∧
    m.package = package ∧ m.isMap = d.isMapEntry

/-- The message under a full name lists what its descriptor declares in it, in order; all of it has the
message as its parent. -/
structure Api.HasNested (api : Api) (fullName : String) (d : MessageDescriptor FieldType) : Prop where
  lists : ∃ m, api.message? (elementId fullName) = some m ∧
    m.messages = d.nested.map (fun n => elementId (qualifiedName fullName n.name)) ∧
    m.enums = d.enums.map fun e => elementId (qualifiedName fullName e.name)
  messages : ∀ n ∈ d.nested, ∃ m, api.message? (elementId (qualifiedName fullName n.name)) = some m ∧
    m.parent = some (elementId fullName)
  enums : ∀ e ∈ d.enums, ∃ x, api.enum? (elementId (qualifiedName fullName e.name)) = some x ∧
    x.parent = some (elementId fullName)

/-- The message with an ID is listed nowhere and lists nothing. -/
structure Api.Apart (api : Api) (id : String) : Prop where
  empty : ∃ m, api.message? id = some m ∧ m.messages = [] ∧ m.enums = []
  unlisted : id ∉ api.messages
  unnested : ∀ outer m, api.message? outer = some m → id ∉ m.messages

namespace Schema

/-- The files of a package. -/
def filesOf (schema : Schema) (package : String) : List (FileDescriptor FieldType) :=
  schema.files.filter (·.package == package)

/-- The model has every element of a schema once, and lists those of a package where they are
declared. -/
structure Complete (schema : Schema) (package : String) (api : Api) : Prop where
  messageIds : api.registry.messages.keys.Perm (schema.messageNames.map elementId)
  enumIds : api.registry.enums.keys.Perm (schema.enumNames.map elementId)
  serviceIds : api.registry.services.keys.Perm
    (((schema.filesOf package).flatMap (·.serviceNames)).map elementId)
  methodIds : api.registry.methods.keys.Perm
    (((schema.filesOf package).flatMap (·.methodNames)).map elementId)
  described : ∀ f ∈ schema.files, ∀ x ∈ f.allMessages, api.Describes f.package x.1 x.2
  messages : api.messages = (schema.filesOf package).flatMap fun f =>
    f.messages.map fun m => elementId (qualifiedName f.package m.name)
  enums : api.enums = (schema.filesOf package).flatMap fun f =>
    f.enums.map fun e => elementId (qualifiedName f.package e.name)
  services : api.services = (schema.filesOf package).flatMap fun f =>
    f.services.map fun s => elementId (qualifiedName f.package s.name)
  nested : ∀ f ∈ schema.filesOf package, ∀ x ∈ f.allMessages, api.HasNested x.1 x.2
  apart : ∀ f ∈ schema.files, f.package ≠ package → ∀ x ∈ f.allMessages, api.Apart (elementId x.1)

variable {schema : Schema} {package : String} {file : FileDescriptor FieldType} {raw : Api}
  {choice : Option String}

/-! ## Elements by what is around them -/

theorem elementId_beq (a b : Option String) :
    (a.map elementId == b.map elementId) = (a == b) := by
  rw [Bool.eq_iff_iff, beq_iff_eq, beq_iff_eq]
  exact (Option.map_injective elementId_injective).eq_iff

theorem map_id_messagesIn (schema : Schema) (file : FileDescriptor FieldType)
    (outer : Option String) :
    ((schema.messagesOf file).filter (·.parent == outer.map elementId)).map (·.id) =
      (namesIn outer file.placedMessages).map elementId := by
  unfold messagesOf namesIn
  rw [List.filter_map, List.map_map, List.map_map]
  simp only [Function.comp_def, toMessage, elementId_beq]

theorem map_id_enumsIn (schema : Schema) (file : FileDescriptor FieldType) (outer : Option String) :
    ((schema.enumsOf file).filter (·.parent == outer.map elementId)).map (·.id) =
      (namesIn outer file.placedEnums).map elementId := by
  unfold enumsOf namesIn
  rw [List.filter_map, List.map_map, List.map_map]
  simp only [Function.comp_def, toEnumeration, elementId_beq]

/-- The message of a file of the package, with what is nested in it listed. -/
def nestedMessage (schema : Schema) (file : FileDescriptor FieldType)
    (p : Placed (MessageDescriptor FieldType)) : Message :=
  ((schema.toMessage file p).withChildren (schema.messagesOf file)).withEnums (schema.enumsOf file)

theorem messages_nestedMessage (hnodup : file.messageNames.Nodup)
    {p : Placed (MessageDescriptor FieldType)} (hp : p ∈ file.placedMessages) :
    (schema.nestedMessage file p).messages =
      p.element.nested.map fun n => elementId (qualifiedName p.fullName n.name) := by
  have hchildren := map_id_messagesIn schema file (some p.fullName)
  rw [FileDescriptor.nestedMessages_eq hnodup hp, List.map_map] at hchildren
  exact hchildren

theorem enums_nestedMessage (hnodup : file.messageNames.Nodup)
    {p : Placed (MessageDescriptor FieldType)} (hp : p ∈ file.placedMessages) :
    (schema.nestedMessage file p).enums =
      p.element.enums.map fun e => elementId (qualifiedName p.fullName e.name) := by
  have henums := map_id_enumsIn schema file (some p.fullName)
  rw [FileDescriptor.nestedEnums_eq hnodup hp, List.map_map] at henums
  exact henums

theorem name_of_mem_messagesOf {name : String}
    (h : elementId name ∈ (schema.messagesOf file).map (·.id)) : name ∈ file.messageNames := by
  rwa [map_id_messagesOf, List.mem_map_of_injective elementId_injective] at h

/-! ## What is registered -/

section Registered

variable (hunique : schema.NamesUnique) (h : schema.toApi choice = .ok raw)

include hunique

theorem nodup_messageNames_of_mem (hfile : file ∈ schema.files) : file.messageNames.Nodup :=
  (List.nodup_flatMap.1 hunique.nodup_messageNames).1 file hfile

/-- A name is declared in one file. -/
theorem file_eq_of_messageName {file' : FileDescriptor FieldType} (hfile : file ∈ schema.files)
    (hfile' : file' ∈ schema.files) {name : String} (hname : name ∈ file.messageNames)
    (hname' : name ∈ file'.messageNames) : file = file' := by
  have hsymm : Std.Symm (Function.onFun List.Disjoint fun f : FileDescriptor FieldType =>
      f.messageNames) := ⟨fun _ _ hab _ hb ha => hab ha hb⟩
  by_contra hne
  exact (List.nodup_flatMap.1 hunique.nodup_messageNames).2.forall hfile hfile' hne hname hname'

/-- The names of a file of another package are not among those of the package. -/
theorem not_mem_filesOf (hfile : file ∈ schema.files) (hpackage : file.package ≠ package)
    {name : String} (hname : name ∈ file.messageNames) {f : FileDescriptor FieldType}
    (hf : f ∈ schema.filesOf package) : name ∉ f.messageNames := by
  intro hmem
  obtain ⟨hfiles, hown⟩ := List.mem_filter.1 hf
  obtain rfl := file_eq_of_messageName hunique hfile hfiles hname hmem
  exact hpackage (by simpa using hown)

include h

theorem message?_of_own (hfile : file ∈ schema.files)
    (hpackage : file.package = choice.getD schema.sourcePackage)
    {p : Placed (MessageDescriptor FieldType)} (hp : p ∈ file.placedMessages) :
    raw.message? (elementId p.fullName) = some (schema.nestedMessage file p) := by
  refine ((holds_toApi hunique h).messages _ _).2 ⟨?_, rfl⟩
  rw [messages_inventory, List.mem_flatMap]
  refine ⟨file, hfile, ?_⟩
  unfold contribution
  rw [if_pos hpackage]
  exact List.mem_map_of_mem (List.mem_map_of_mem hp)

theorem message?_of_other (hfile : file ∈ schema.files)
    (hpackage : file.package ≠ choice.getD schema.sourcePackage)
    {p : Placed (MessageDescriptor FieldType)} (hp : p ∈ file.placedMessages) :
    raw.message? (elementId p.fullName) = some (schema.toMessage file p) := by
  refine ((holds_toApi hunique h).messages _ _).2 ⟨?_, rfl⟩
  rw [messages_inventory, List.mem_flatMap]
  refine ⟨file, hfile, ?_⟩
  unfold contribution
  rw [if_neg hpackage]
  exact List.mem_map_of_mem hp

theorem enum?_of_mem (hfile : file ∈ schema.files) {p : Placed EnumDescriptor}
    (hp : p ∈ file.placedEnums) :
    raw.enum? (elementId p.fullName) = some (schema.toEnumeration file p) := by
  refine ((holds_toApi hunique h).enums _ _).2 ⟨?_, rfl⟩
  rw [enums_inventory, List.mem_flatMap]
  exact ⟨file, hfile, List.mem_map_of_mem hp⟩

/-- A registered message lists messages of its own file, and only if that is of the package. -/
theorem listed_of_message? {id : String} {m : Message} (hm : raw.message? id = some m)
    {listed : String} (hlisted : listed ∈ m.messages) :
    ∃ f ∈ schema.filesOf (choice.getD schema.sourcePackage), ∃ name ∈ f.messageNames,
      listed = elementId name := by
  obtain ⟨hmem, -⟩ := ((holds_toApi hunique h).messages id m).1 hm
  rw [messages_inventory, List.mem_flatMap] at hmem
  obtain ⟨f, hf, hmem⟩ := hmem
  unfold contribution at hmem
  split at hmem
  · rename_i hpackage
    obtain ⟨bare, hbare, rfl⟩ := List.mem_map.1 hmem
    obtain ⟨p, hp, rfl⟩ := List.mem_map.1 hbare
    refine ⟨f, List.mem_filter.2 ⟨hf, by simpa using hpackage⟩, ?_⟩
    obtain ⟨child, hchild, rfl⟩ := List.mem_map.1 (show listed ∈
      (List.filter _ (schema.messagesOf f)).map (·.id) from hlisted)
    have hid := List.mem_map_of_mem (f := (·.id)) (List.mem_filter.1 hchild).1
    rw [map_id_messagesOf] at hid
    obtain ⟨name, hname, heq⟩ := List.mem_map.1 hid
    exact ⟨name, hname, heq.symm⟩
  · obtain ⟨p, hp, rfl⟩ := List.mem_map.1 hmem
    exact nomatch hlisted

/-- A message of the package lists what is declared in it. -/
theorem nests_of_toApi (hfile : file ∈ schema.files)
    (hpackage : file.package = choice.getD schema.sourcePackage)
    {p : Placed (MessageDescriptor FieldType)} (hp : p ∈ file.placedMessages) :
    raw.HasNested p.fullName p.element := by
  have hnodup := nodup_messageNames_of_mem hunique hfile
  refine ⟨⟨_, message?_of_own hunique h hfile hpackage hp, messages_nestedMessage hnodup hp,
    enums_nestedMessage hnodup hp⟩, ?_, ?_⟩
  · intro n hn
    have hname := List.mem_map_of_mem (f := fun n => qualifiedName p.fullName n.name) hn
    rw [← FileDescriptor.nestedMessages_eq hnodup hp] at hname
    obtain ⟨q, hq, houter, hname⟩ := mem_namesIn.1 hname
    rw [← hname, message?_of_own hunique h hfile hpackage hq]
    exact ⟨_, rfl, congrArg (·.map elementId) houter⟩
  · intro e he
    have hname := List.mem_map_of_mem (f := fun e => qualifiedName p.fullName e.name) he
    rw [← FileDescriptor.nestedEnums_eq hnodup hp] at hname
    obtain ⟨q, hq, houter, hname⟩ := mem_namesIn.1 hname
    rw [← hname, enum?_of_mem hunique h hfile hq]
    exact ⟨_, rfl, congrArg (·.map elementId) houter⟩

/-- A message of another package is listed nowhere. -/
theorem apart_of_toApi (hfile : file ∈ schema.files)
    (hpackage : file.package ≠ choice.getD schema.sourcePackage)
    {p : Placed (MessageDescriptor FieldType)} (hp : p ∈ file.placedMessages) :
    raw.Apart (elementId p.fullName) := by
  have hname : p.fullName ∈ file.messageNames := by
    unfold FileDescriptor.messageNames
    rw [← FileDescriptor.placedMessages_map, List.map_map]
    exact List.mem_map_of_mem hp
  refine ⟨⟨_, message?_of_other hunique h hfile hpackage hp, rfl, rfl⟩, ?_, ?_⟩
  · intro hlisted
    rw [show raw.messages = _ from congrArg Listing.messages (listing_toApi h)] at hlisted
    obtain ⟨f, hf, hlisted⟩ := List.mem_flatMap.1 hlisted
    have hid : elementId p.fullName ∈ (schema.messagesOf f).map (·.id) :=
      (List.filter_sublist.map _).subset hlisted
    exact not_mem_filesOf hunique hfile hpackage hname hf (name_of_mem_messagesOf hid)
  · intro outer m hm hlisted
    obtain ⟨f, hf, name, hmem, heq⟩ := listed_of_message? hunique h hm hlisted
    rw [← elementId_injective heq] at hmem
    exact not_mem_filesOf hunique hfile hpackage hname hf hmem

end Registered

/-! ## Services and methods -/

theorem flatMap_filter {α β : Type} (as : List α) (keep : α → Bool) (g : α → List β) :
    (as.filter keep).flatMap g = as.flatMap fun a => if keep a then g a else [] := by
  induction as with
  | nil => rfl
  | cons a rest ih =>
    rw [List.filter_cons, List.flatMap_cons, ← ih]
    split
    · rw [List.flatMap_cons]
    · rfl

/-- Where a model is made, no path of the package is bad. -/
theorem exists_methods_of_toApi (h : schema.toApi choice = .ok raw) (hfile : file ∈ schema.files)
    (hpackage : file.package = choice.getD schema.sourcePackage) {s : Placed ServiceDescriptor}
    (hs : s ∈ file.placedServices) : ∃ methods, schema.toMethods file s = .ok methods := by
  unfold toApi at h
  obtain ⟨api, next, hstep⟩ := exists_step_of_foldlM h hfile
  rw [if_pos hpackage] at hstep
  unfold addFile at hstep
  obtain ⟨before, after, hservice⟩ := exists_step_of_foldlM hstep hs
  obtain ⟨methods, hmethods, -⟩ := bind_eq_ok_iff.1 hservice
  exact ⟨methods, hmethods⟩

/-- Without a bad path a file contributes every method that it declares. -/
theorem map_id_methodsOf
    (hok : ∀ s ∈ file.placedServices, ∃ methods, schema.toMethods file s = .ok methods) :
    ((schema.servicesOf file).flatMap (·.2)).map (·.id) = file.methodNames.map elementId := by
  have hservices : file.methodNames = (file.placedServices.map fun s =>
      (s.fullName, s.element)).flatMap fun x => x.2.methods.map fun m => qualifiedName x.1 m.name := by
    rw [FileDescriptor.map_placedServices, List.flatMap_map]
    rfl
  rw [hservices, List.map_flatMap, List.map_flatMap, List.flatMap_map]
  unfold servicesOf
  rw [List.flatMap_map]
  refine List.flatMap_congr fun s hs => ?_
  obtain ⟨methods, hmethods⟩ := hok s hs
  rw [hmethods]
  show methods.map (·.id) = _
  rw [map_id_toMethods hmethods, List.map_map]
  rfl

/-- What only the files of a package contribute to. -/
theorem flatMap_filesOf {α : Type} {package : String} {part own : FileDescriptor FieldType → List α}
    (hown : ∀ file ∈ schema.files, file.package = package → part file = own file)
    (hother : ∀ file, file.package ≠ package → part file = []) :
    schema.files.flatMap part = (schema.filesOf package).flatMap own := by
  unfold filesOf
  rw [flatMap_filter]
  refine List.flatMap_congr fun file hfile => ?_
  by_cases hpackage : file.package = package
  · rw [hown file hfile hpackage, if_pos (by simpa using hpackage)]
  · rw [hother file hpackage, if_neg (by simpa using hpackage)]

theorem map_id_inventory_services (schema : Schema) (package : String) :
    (schema.inventory package schema.files).services.map (·.id) =
      ((schema.filesOf package).flatMap (·.serviceNames)).map elementId := by
  rw [services_inventory, List.map_flatMap, List.map_flatMap]
  unfold contribution
  refine flatMap_filesOf (fun file _ hpackage => ?_) fun file hpackage => ?_
  · rw [if_pos hpackage, ← map_id_servicesOf schema, List.map_map]
    rfl
  · rw [if_neg hpackage]
    rfl

theorem map_id_inventory_methods (h : schema.toApi choice = .ok raw) :
    (schema.inventory (choice.getD schema.sourcePackage) schema.files).methods.map (·.id) =
      ((schema.filesOf (choice.getD schema.sourcePackage)).flatMap (·.methodNames)).map
        elementId := by
  rw [methods_inventory, List.map_flatMap, List.map_flatMap]
  unfold contribution
  refine flatMap_filesOf (fun file hfile hpackage => ?_) fun file hpackage => ?_
  · rw [if_pos hpackage]
    exact map_id_methodsOf fun s hs => exists_methods_of_toApi h hfile hpackage hs
  · rw [if_neg hpackage]
    rfl

/-! ## The model of a package -/

theorem map_id_topMessages (schema : Schema) (file : FileDescriptor FieldType) :
    ((schema.messagesOf file).filter (·.parent.isNone)).map (·.id) =
      file.messages.map fun m => elementId (qualifiedName file.package m.name) := by
  have htop := map_id_messagesIn schema file none
  rw [FileDescriptor.topMessages_eq, List.map_map] at htop
  simpa [Option.isNone_iff_eq_none, Function.comp_def, Option.beq_none] using htop

theorem map_id_topEnums (schema : Schema) (file : FileDescriptor FieldType) :
    ((schema.enumsOf file).filter (·.parent.isNone)).map (·.id) =
      file.enums.map fun e => elementId (qualifiedName file.package e.name) := by
  have htop := map_id_enumsIn schema file none
  rw [FileDescriptor.topEnums_eq, List.map_map] at htop
  simpa [Function.comp_def, Option.beq_none] using htop

/-- **With unique names the model of a package is complete.** -/
theorem complete_of_toApi (hunique : schema.NamesUnique) (h : schema.toApi choice = .ok raw) :
    schema.Complete (choice.getD schema.sourcePackage) raw := by
  have hholds := holds_toApi hunique h
  have hdistinct := distinct_inventory hunique (choice.getD schema.sourcePackage)
  have hlisting := listing_toApi h
  have hplaced : ∀ f : FileDescriptor FieldType, ∀ x ∈ f.allMessages,
      ∃ p ∈ f.placedMessages, (p.fullName, p.element) = x := by
    intro f x hx
    rw [← FileDescriptor.placedMessages_map] at hx
    exact List.mem_map.1 hx
  constructor
  case messageIds =>
    have hkeys := hholds.messages.keys_perm hdistinct.messages
    rwa [map_id_inventory_messages] at hkeys
  case enumIds =>
    exact (hholds.enums.keys_perm hdistinct.enums).trans (map_id_inventory_enums_perm _)
  case serviceIds =>
    have hkeys := hholds.services.keys_perm hdistinct.services
    rwa [map_id_inventory_services] at hkeys
  case methodIds =>
    have hkeys := hholds.methods.keys_perm hdistinct.methods
    rwa [map_id_inventory_methods h] at hkeys
  case described =>
    intro f hf x hx
    obtain ⟨p, hp, rfl⟩ := hplaced f x hx
    by_cases hpackage : f.package = choice.getD schema.sourcePackage
    · exact ⟨_, message?_of_own hunique h hf hpackage hp, rfl, rfl, rfl⟩
    · exact ⟨_, message?_of_other hunique h hf hpackage hp, rfl, rfl, rfl⟩
  case messages =>
    refine (congrArg Listing.messages hlisting).trans ?_
    exact List.flatMap_congr fun f _ => map_id_topMessages schema f
  case enums =>
    refine (congrArg Listing.enums hlisting).trans ?_
    exact List.flatMap_congr fun f _ => map_id_topEnums schema f
  case services =>
    refine (congrArg Listing.services hlisting).trans ?_
    refine List.flatMap_congr fun f _ => ?_
    rw [map_id_servicesOf, FileDescriptor.serviceNames, List.map_map]
    rfl
  case nested =>
    intro f hf x hx
    obtain ⟨hfile, hpackage⟩ := List.mem_filter.1 hf
    obtain ⟨p, hp, rfl⟩ := hplaced f x hx
    exact nests_of_toApi hunique h hfile (by simpa using hpackage) hp
  case apart =>
    intro f hf hpackage x hx
    obtain ⟨p, hp, rfl⟩ := hplaced f x hx
    exact apart_of_toApi hunique h hf hpackage hp

end Schema

namespace Specification

/-- **The raw model of a specification is complete.**  A service configuration adds texts only. -/
theorem complete_toApi {spec : Specification} {raw : Api} (hunique : spec.schema.NamesUnique)
    (h : spec.toApi = .ok raw) :
    spec.schema.Complete (spec.package.getD spec.schema.sourcePackage) raw := by
  unfold toApi at h
  obtain ⟨api, hapi, h⟩ := bind_eq_ok_iff.1 h
  have hcomplete := Schema.complete_of_toApi hunique (mapError_eq_ok_iff.1 hapi)
  obtain rfl := Except.ok.inj h
  cases spec.serviceConfig with
  | none => exact hcomplete
  | some config =>
    exact
      { messageIds := hcomplete.messageIds
        enumIds := hcomplete.enumIds
        serviceIds := hcomplete.serviceIds
        methodIds := hcomplete.methodIds
        described := fun f hf x hx => ⟨(hcomplete.described f hf x hx).message⟩
        messages := hcomplete.messages
        enums := hcomplete.enums
        services := hcomplete.services
        nested := fun f hf x hx =>
          let hnests := hcomplete.nested f hf x hx
          ⟨hnests.lists, hnests.messages, hnests.enums⟩
        apart := fun f hf hpackage x hx =>
          let hapart := hcomplete.apart f hf hpackage x hx
          ⟨hapart.empty, hapart.unlisted, hapart.unnested⟩ }

/-- Orders with a map of their lines, beside a file of another package. -/
def orders : Specification where
  schema := .ofResolved [
    { name := "type.proto", package := "type"
      messages := [{ name := "Money", nested := [{ name := "Unit" }] }] },
    { name := "orders.proto", package := "v1", dependencies := ["type.proto"]
      messages := [{
        name := "Order"
        fields := [{ name := "lines", number := 1, cardinality := .repeated,
                     type := .message "v1.Order.LinesEntry" },
          { name := "total", number := 2, type := .message "type.Money" }]
        nested := [{ name := "LinesEntry" }, { name := "Line", nested := [{ name := "Note" }] }]
        enums := [{ name := "State", values := [{ name := "NEW" }] }] }]
      services := [{
        name := "Orders"
        methods := [{ name := "Get", input := "v1.Order", output := "v1.Order" }] }] }]

theorem complete_toApi_orders :
    orders.schema.NamesUnique ∧ ∃ raw, orders.toApi = .ok raw ∧ orders.schema.Complete "v1" raw := by
  have hunique : orders.schema.NamesUnique := by decide
  have hpackage : orders.package.getD orders.schema.sourcePackage = "v1" := by decide
  obtain ⟨raw, hraw⟩ : ∃ raw, orders.toApi = .ok raw := ⟨_, rfl⟩
  exact ⟨hunique, raw, hraw, hpackage ▸ complete_toApi hunique hraw⟩

end Specification

end ApiModel
