import ApiModel.Proofs.Schema.Contribution

/-!
# The model of a schema with unique names

The files are followed one after another: each adds what it contributes to the registry, and only
those of the package list anything.

Principal results:

* `holds_toApi` — the registry of the raw model has what the files contribute, each element under
  its own ID;
* `listing_toApi` — the model lists the elements of the files of its package that no message is
  around;
* `hasBadPath_of_toApi` — only a path of an HTTP rule can keep the model from being made.
-/

namespace ApiModel

namespace Schema

variable {schema : Schema} {file : FileDescriptor FieldType} {api api' : Api} {inv : Inventory}

/-! ## Parents -/

/-- The message around a message of a file is one of the file. -/
theorem parent_mem_of_message {child : Message} (hchild : child ∈ schema.messagesOf file)
    {parent : String} (hparent : child.parent = some parent) :
    parent ∈ (schema.messagesOf file).map (·.id) := by
  obtain ⟨p, hp, rfl⟩ := List.mem_map.1 hchild
  obtain ⟨outer, houter, rfl⟩ := Option.map_eq_some_iff.1 hparent
  obtain ⟨q, hq, rfl⟩ := List.mem_map.1 (FileDescriptor.mem_names_of_outer hp houter)
  exact List.mem_map.2 ⟨_, List.mem_map_of_mem hq, rfl⟩

theorem parent_mem_of_enum {e : Enumeration} (he : e ∈ schema.enumsOf file) {parent : String}
    (hparent : e.parent = some parent) : parent ∈ (schema.messagesOf file).map (·.id) := by
  obtain ⟨p, hp, rfl⟩ := List.mem_map.1 he
  obtain ⟨outer, houter, rfl⟩ := Option.map_eq_some_iff.1 hparent
  rcases FileDescriptor.mem_placedEnums_cases hp with ⟨hnone, -⟩ | ⟨q, hq, hsome, -⟩
  · rw [hnone] at houter
    cases houter
  · obtain rfl := Option.some.inj (hsome.symm.trans houter)
    exact List.mem_map.2 ⟨_, List.mem_map_of_mem hq, rfl⟩

theorem parentsFirst_messagesOf (hnodup : file.messageNames.Nodup) :
    ParentsFirst (schema.messagesOf file) := by
  have hne : ∀ a b : Placed (MessageDescriptor FieldType), a.outer ≠ some b.fullName →
      (schema.toMessage file a).parent ≠ some (schema.toMessage file b).id := by
    intro a b hab hparent
    obtain ⟨outer, houter, hid⟩ := Option.map_eq_some_iff.1 hparent
    exact hab (houter.trans (congrArg some (elementId_injective hid)))
  obtain ⟨hpairs, hself⟩ := FileDescriptor.placedMessages_outer hnodup
  refine ⟨List.pairwise_map.2 (hpairs.imp fun h => hne _ _ h), ?_⟩
  intro m hm
  obtain ⟨p, hp, rfl⟩ := List.mem_map.1 hm
  exact hne p p (hself p hp)

/-! ## A file -/

/-- The services of a file are added with their methods, if no path is bad. -/
theorem foldlM_addService {services : List (Placed ServiceDescriptor)}
    (h : services.foldlM (fun api s => do
      return api.addService (schema.toService file s) (← schema.toMethods file s)) api = .ok api') :
    (services.map fun s => (schema.toService file s, (schema.toMethods file s).toOption.getD [])).foldl
      (fun api x => api.addService x.1 x.2) api = api' := by
  induction services generalizing api with
  | nil => exact Except.ok.inj h
  | cons s rest ih =>
    rw [List.foldlM_cons] at h
    obtain ⟨next, hnext, h⟩ := bind_eq_ok_iff.1 h
    obtain ⟨methods, hmethods, hnext⟩ := bind_eq_ok_iff.1 hnext
    obtain rfl := Except.ok.inj hnext
    rw [List.map_cons, List.foldl_cons, hmethods]
    exact ih h

/-- The messages of a file keep to themselves: none around them is among those that were there. -/
theorem parent_ne_of_nodup {new old : List Message}
    (hnodup : (old.map (·.id) ++ new.map (·.id)).Nodup) {parent : Option String}
    (hparent : ∀ id, parent = some id → id ∈ new.map (·.id)) {m : Message} (hm : m ∈ old) :
    parent ≠ some m.id := by
  intro h
  have hdisjoint := (List.nodup_append.1 hnodup).2.2
  exact hdisjoint m.id (List.mem_map_of_mem hm) m.id (hparent m.id h) rfl

/-- A file of the package adds what it contributes. -/
theorem holds_addFile (h : api.Holds inv) (hadd : schema.addFile api file = .ok api')
    (hdistinct : (inv.append (schema.contribution file file.package)).Distinct) :
    api'.Holds (inv.append (schema.contribution file file.package)) := by
  have hcontribution : schema.contribution file file.package =
      { messages := schema.nestedMessagesOf file
        enums := schema.enumsOf file
        services := (schema.servicesOf file).map fun x => x.1.listing x.2
        methods := (schema.servicesOf file).flatMap (·.2) } := if_pos rfl
  obtain ⟨hmessages, henums, hservices, hmethods⟩ := hdistinct
  unfold Inventory.append at hmessages henums hservices hmethods
  rw [List.map_append, map_id_contribution_messages, ← map_id_messagesOf schema]
    at hmessages
  simp only [hcontribution, List.map_append, List.map_map, List.map_flatMap]
    at henums hservices hmethods
  have hfirst : ParentsFirst (schema.messagesOf file) := by
    refine parentsFirst_messagesOf ?_
    rw [map_id_messagesOf] at hmessages
    exact (List.nodup_append.1 hmessages).2.1.of_map _
  have hchildren : inv.messages.map (Message.withChildren (schema.messagesOf file)) =
      inv.messages :=
    Api.map_withChildren_of_forall_ne fun m hm child hchild =>
      parent_ne_of_nodup hmessages (fun _ => parent_mem_of_message hchild) hm
  have hnested : inv.messages.map (Message.withEnums (schema.enumsOf file)) = inv.messages :=
    Api.map_withEnums_of_forall_ne fun m hm e he =>
      parent_ne_of_nodup hmessages (fun _ => parent_mem_of_enum he) hm
  unfold addFile at hadd
  rw [← foldlM_addService hadd, hcontribution]
  have hall := (((h.addResourceDefinitions
    (schema.options .file file.options).resourceDefinitions).addMessages hfirst hmessages).addEnums
      henums).addServices hservices hmethods
  dsimp only at hall
  rw [List.map_append, hchildren, List.map_append, hnested, List.map_map] at hall
  exact hall

/-- A file of another package registers what it contributes. -/
theorem holds_registerFile {package : String} (h : api.Holds inv) (hpackage : file.package ≠ package)
    (hdistinct : (inv.append (schema.contribution file package)).Distinct) :
    (schema.registerFile api file).Holds (inv.append (schema.contribution file package)) := by
  have hcontribution : schema.contribution file package =
      { messages := schema.messagesOf file, enums := schema.enumsOf file } := if_neg hpackage
  rw [hcontribution] at hdistinct ⊢
  obtain ⟨hmessages, henums, -, -⟩ := hdistinct
  unfold Inventory.append at hmessages henums
  rw [List.map_append] at hmessages henums
  have hall := ((h.withResources
    (schema.options .file file.options).resourceDefinitions).addDependencyMessages
      hmessages).addDependencyEnums henums
  unfold Inventory.append
  rw [List.append_nil, List.append_nil]
  exact hall

/-! ## All files -/

/-- The model of a package ahead of the files. -/
def initial (schema : Schema) (package : String) : Api :=
  { name := schema.apiName package, package }

theorem holds_initial (schema : Schema) (package : String) :
    (schema.initial package).Holds {} :=
  ⟨IdMap.holds_empty _, IdMap.holds_empty _, IdMap.holds_empty _, IdMap.holds_empty _⟩

/-- What one file does to the model of a package. -/
def step (schema : Schema) (package : String) (api : Api) (file : FileDescriptor FieldType) :
    Except PathTemplate.Error Api :=
  if file.package = package then schema.addFile api file else .ok (schema.registerFile api file)

theorem holds_step {package : String} (h : api.Holds inv)
    (hstep : schema.step package api file = .ok api')
    (hdistinct : (inv.append (schema.contribution file package)).Distinct) :
    api'.Holds (inv.append (schema.contribution file package)) := by
  unfold step at hstep
  split at hstep
  · rename_i hpackage
    subst hpackage
    exact holds_addFile h hstep hdistinct
  · rename_i hpackage
    obtain rfl := Except.ok.inj hstep
    exact holds_registerFile h hpackage hdistinct

theorem holds_steps {package : String} {files : List (FileDescriptor FieldType)}
    (h : api.Holds inv) (hsteps : files.foldlM (schema.step package) api = .ok api')
    (hdistinct : (inv.append (schema.inventory package files)).Distinct) :
    api'.Holds (inv.append (schema.inventory package files)) := by
  induction files generalizing api inv with
  | nil =>
    obtain rfl := Except.ok.inj hsteps
    rwa [show schema.inventory package [] = {} from rfl, Inventory.append_nil]
  | cons file rest ih =>
    rw [List.foldlM_cons] at hsteps
    obtain ⟨next, hnext, hrest⟩ := bind_eq_ok_iff.1 hsteps
    unfold inventory at hdistinct ⊢
    rw [← Inventory.append_assoc] at hdistinct ⊢
    exact ih (holds_step h hnext hdistinct.of_append_left) hrest hdistinct

/-- **The registry of the raw model has what the files contribute**, each element under its own
ID. -/
theorem holds_toApi (hunique : schema.NamesUnique) {package : Option String} {raw : Api}
    (h : schema.toApi package = .ok raw) :
    raw.Holds (schema.inventory (package.getD schema.sourcePackage) schema.files) := by
  have hdistinct := distinct_inventory hunique (package.getD schema.sourcePackage)
  have hnil : ∀ inv : Inventory, ({} : Inventory).append inv = inv := fun _ => rfl
  rw [← hnil (schema.inventory _ _)] at hdistinct ⊢
  exact holds_steps (holds_initial schema _) h hdistinct

/-! ## What is listed -/

/-- What the files list in the model of a package: their elements that no message is around. -/
def listing (schema : Schema) (package : String) (files : List (FileDescriptor FieldType)) :
    Listing :=
  let own := files.filter (·.package == package)
  { package
    messages := own.flatMap fun f => ((schema.messagesOf f).filter (·.parent.isNone)).map (·.id)
    enums := own.flatMap fun f => ((schema.enumsOf f).filter (·.parent.isNone)).map (·.id)
    services := own.flatMap fun f => (schema.servicesOf f).map (·.1.id) }

theorem listing_step {package : String} (hstep : schema.step package api file = .ok api') :
    api'.listing =
      { api.listing with
        messages := api.listing.messages ++ (schema.listing package [file]).messages
        enums := api.listing.enums ++ (schema.listing package [file]).enums
        services := api.listing.services ++ (schema.listing package [file]).services } := by
  unfold step at hstep
  unfold listing
  split at hstep
  · rename_i hpackage
    unfold addFile at hstep
    rw [← foldlM_addService hstep, Api.listing_addServices, Api.listing_addEnums,
      Api.listing_addMessages, Api.listing_addResourceDefinitions]
    simp [hpackage, messagesOf, enumsOf, servicesOf]
  · rename_i hpackage
    obtain rfl := Except.ok.inj hstep
    unfold registerFile
    rw [Api.listing_addDependencyEnums, Api.listing_addDependencyMessages,
      Api.listing_withResources]
    simp [hpackage]

theorem listing_steps {package : String} {files : List (FileDescriptor FieldType)}
    (hsteps : files.foldlM (schema.step package) api = .ok api') :
    api'.listing =
      { api.listing with
        messages := api.listing.messages ++ (schema.listing package files).messages
        enums := api.listing.enums ++ (schema.listing package files).enums
        services := api.listing.services ++ (schema.listing package files).services } := by
  induction files generalizing api with
  | nil =>
    obtain rfl := Except.ok.inj hsteps
    simp [listing]
  | cons file rest ih =>
    rw [List.foldlM_cons] at hsteps
    obtain ⟨next, hnext, hrest⟩ := bind_eq_ok_iff.1 hsteps
    rw [ih hrest, listing_step hnext]
    unfold listing
    by_cases hpackage : file.package = package <;> simp [hpackage]

/-- **The model lists the elements of the files of its package** that no message is around. -/
theorem listing_toApi {package : Option String} {raw : Api}
    (h : schema.toApi package = .ok raw) :
    raw.listing = schema.listing (package.getD schema.sourcePackage) schema.files :=
  listing_steps h

/-! ## Bad paths -/

/-- A method in the package has an HTTP rule with a path that is no template. -/
def HasBadPath (schema : Schema) (package : String) (fault : PathTemplate.Error) : Prop :=
  ∃ f ∈ schema.files, f.package = package ∧ ∃ s ∈ f.services, ∃ m ∈ s.methods,
    ∃ rule, (schema.options .method m.options).httpRule? = some rule ∧
      ∃ route ∈ (HttpRule.ofValue rule).routes, ∃ verb path,
        route.pattern = some (verb, path) ∧ PathTemplate.parse path = .error fault

theorem exists_route_of_pathInfo {fields : List String} {rule : HttpRule}
    {fault : PathTemplate.Error} (h : rule.pathInfo fields = .error fault) :
    ∃ route ∈ rule.routes, ∃ verb path,
      route.pattern = some (verb, path) ∧ PathTemplate.parse path = .error fault := by
  unfold HttpRule.pathInfo at h
  rcases bind_eq_error_iff.1 h with hroutes | ⟨_, -, h⟩
  · obtain ⟨route, hroute, hbinding⟩ := exists_error_of_mapM hroutes
    unfold HttpRoute.binding? at hbinding
    split at hbinding
    · cases hbinding
    · rename_i verb path hpattern
      rcases bind_eq_error_iff.1 hbinding with hparse | ⟨_, -, hbinding⟩
      · exact ⟨route, hroute, verb, path, hpattern, hparse⟩
      · cases hbinding
  · cases h

theorem exists_rule_of_toMethod {scope : String} {m : MethodDescriptor} {path : List Int}
    {fault : PathTemplate.Error} (h : schema.toMethod file scope m path = .error fault) :
    ∃ rule, (schema.options .method m.options).httpRule? = some rule ∧
      ∃ fields, (HttpRule.ofValue rule).pathInfo fields = .error fault := by
  unfold toMethod at h
  dsimp only at h
  split at h
  · rename_i rule hrule
    rcases bind_eq_error_iff.1 h with hinfo | ⟨_, -, h⟩
    · exact ⟨rule, hrule, _, hinfo⟩
    · cases h
  · cases h

/-- **Only a bad path keeps the raw model from being made.** -/
theorem hasBadPath_of_toApi {package : Option String} {fault : PathTemplate.Error}
    (h : schema.toApi package = .error fault) :
    schema.HasBadPath (package.getD schema.sourcePackage) fault := by
  obtain ⟨file, hfile, api, hstep⟩ := exists_error_of_foldlM h
  split at hstep
  · rename_i hpackage
    unfold addFile at hstep
    obtain ⟨s, hs, api, hservice⟩ := exists_error_of_foldlM hstep
    rcases bind_eq_error_iff.1 hservice with hmethods | ⟨_, -, hservice⟩
    · obtain ⟨x, hx, hmethod⟩ := exists_error_of_mapM hmethods
      obtain ⟨rule, hrule, fields, hinfo⟩ := exists_rule_of_toMethod hmethod
      refine ⟨file, hfile, hpackage, s.element, FileDescriptor.mem_services hs, x.1, ?_, rule, hrule,
        exists_route_of_pathInfo hinfo⟩
      rw [← s.map_fst_members 2 s.element.methods]
      exact List.mem_map_of_mem hx
    · cases hservice
  · cases hstep

end Schema

end ApiModel
