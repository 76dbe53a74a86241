import ApiModel.Build
import ApiModel.Proofs.Answer
import ApiModel.Proofs.Outcome

/-!
# What the analyses leave as it was declared

Analyses record links, samples, traits, pages, recursion, targets and documentation.  `Api.declared`
is a model without any of that: the elements with their IDs, packages, types and lists.

Principal results: each analysis leaves `Api.declared` as it was — `declared_crossReference`,
`declared_paginate`, `declared_labelRecursive`, `declared_overrideDocumentations`,
`declared_identifyTargets`, `declared_applyOverrides` — except the selection, which selects what is
declared: `declared_applySelection`.
-/

namespace ApiModel

/-! ## Elements as declared -/

/-- The field as it is declared. -/
def Field.bare (f : Field) : Field := { f with links := {}, recursive := false, documentation := "" }

def OneOf.bare (o : OneOf) : OneOf := { o with exampleField := none }

/-- The message as it is declared. -/
def Message.bare (m : Message) : Message :=
  { m with
    documentation := ""
    fields := m.fields.map Field.bare
    oneOfs := m.oneOfs.map OneOf.bare
    pagination := none }

def EnumValue.bare (v : EnumValue) : EnumValue := { v with documentation := "", parent := none }

/-- The enumeration as it is declared. -/
def Enumeration.bare (e : Enumeration) : Enumeration :=
  { e with
    documentation := ""
    values := e.values.map EnumValue.bare
    uniqueNumberValues := []
    valuesForExamples := [] }

def Service.bare (s : Service) : Service := { s with documentation := "", model := none }

/-- The method as it is declared. -/
def Method.bare (m : Method) : Method :=
  { m with
    documentation := ""
    pathInfo.bindings := m.pathInfo.bindings.map ({ · with target := none })
    operation := m.operation.map ({ · with methodId := none })
    links := {}
    pagination := none
    traits := {} }

namespace Api

/-- The model as it is declared. -/
def declared (api : Api) : Api :=
  { api with
    name := ""
    title := ""
    description := ""
    registry.messages := api.registry.messages.map fun _ => Message.bare
    registry.enums := api.registry.enums.map fun _ => Enumeration.bare
    registry.services := api.registry.services.map fun _ => Service.bare
    registry.methods := api.registry.methods.map fun _ => Method.bare }

section Replace

variable {api : Api}

theorem declared_with_messages {messages : IdMap Message}
    (h : (messages.map fun _ => Message.bare) = api.registry.messages.map fun _ => Message.bare) :
    { api with registry.messages := messages }.declared = api.declared := by
  simp only [declared, h]

theorem declared_with_enums {enums : IdMap Enumeration}
    (h : (enums.map fun _ => Enumeration.bare) =
      api.registry.enums.map fun _ => Enumeration.bare) :
    { api with registry.enums := enums }.declared = api.declared := by
  simp only [declared, h]

theorem declared_with_services {services : IdMap Service}
    (h : (services.map fun _ => Service.bare) = api.registry.services.map fun _ => Service.bare) :
    { api with registry.services := services }.declared = api.declared := by
  simp only [declared, h]

theorem declared_with_methods {methods : IdMap Method}
    (h : (methods.map fun _ => Method.bare) = api.registry.methods.map fun _ => Method.bare) :
    { api with registry.methods := methods }.declared = api.declared := by
  simp only [declared, h]

end Replace

/-! ## Lookups in what is declared -/

section Declared

variable (api : Api) (id : String)

theorem message?_declared : api.declared.message? id = (api.message? id).map Message.bare := by
  simp [message?, declared]

theorem enum?_declared : api.declared.enum? id = (api.enum? id).map Enumeration.bare := by
  simp [enum?, declared]

theorem service?_declared : api.declared.service? id = (api.service? id).map Service.bare := by
  simp [service?, declared]

theorem method?_declared : api.declared.method? id = (api.method? id).map Method.bare := by
  simp [method?, declared]

theorem contains_messages_declared :
    api.declared.registry.messages.contains id = api.registry.messages.contains id := by
  simp [IdMap.contains, declared]

theorem contains_enums_declared :
    api.declared.registry.enums.contains id = api.registry.enums.contains id := by
  simp [IdMap.contains, declared]

theorem contains_methods_declared :
    api.declared.registry.methods.contains id = api.registry.methods.contains id := by
  simp [IdMap.contains, declared]

end Declared

/-! ## Cross-referencing -/

theorem bare_linkField (r : Registry) (messageId : String) (f : Field) :
    (r.linkField messageId f).state.bare = f.bare := by
  unfold Registry.linkField
  dsimp only
  split
  · split <;> rfl
  · split <;> rfl
  · rfl

theorem map_bare_joinGroup (messageId : String) (fields : List Field) (member : String × String) :
    (joinGroup messageId fields member).state.map Field.bare = fields.map Field.bare := by
  unfold joinGroup
  dsimp only
  split
  · rfl
  · refine Outcome.map_list_modify Field.bare ?_ _ _
    intro f
    rfl

theorem bare_linkMessage (r : Registry) (m : Message) : (r.linkMessage m).state.bare = m.bare := by
  have hfields : (((Outcome.sweep (r.linkField m.id) m.fields).andThen fun fields =>
      Outcome.fold (joinGroup m.id) fields m.groupMembers).state).map Field.bare =
        m.fields.map Field.bare := by
    refine Outcome.andThen_frame (List.map Field.bare) ?_ ?_
    · exact Outcome.map_sweep_state Field.bare (bare_linkField r m.id) m.fields
    · intro fields
      exact Outcome.fold_frame (List.map Field.bare) (map_bare_joinGroup m.id) _ _
  simp only [Registry.linkMessage, Outcome.map_state, Message.bare, hfields]

theorem declared_linkFields (api : Api) : api.linkFields.state.declared = api.declared := by
  unfold linkFields
  rw [Outcome.map_state]
  exact declared_with_messages (IdMap.map_sweep_state Message.bare (bare_linkMessage api.registry))

theorem bare_linkValues (e : Enumeration) : e.linkValues.bare = e.bare := by
  simp [Enumeration.linkValues, Enumeration.bare, Function.comp_def, EnumValue.bare]

theorem declared_linkEnums (api : Api) : api.linkEnums.declared = api.declared := by
  unfold linkEnums
  refine declared_with_enums ?_
  rw [IdMap.map_map]
  simp only [bare_linkValues]

theorem bare_linkMethod (r : Registry) (m : Method) : (r.linkMethod m).state.bare = m.bare := by
  unfold Registry.linkMethod
  split
  · rfl
  · split
    · rfl
    · simp [Method.bare, Function.comp_def]

theorem declared_linkMethods (api : Api) : api.linkMethods.state.declared = api.declared := by
  unfold linkMethods
  rw [Outcome.map_state]
  exact declared_with_methods (IdMap.map_sweep_state Method.bare (bare_linkMethod api.registry))

theorem map_bare_linkListed (api : Api) (s : Service) (methods : IdMap Method) (id : String) :
    ((api.linkListed s methods id).state.map fun _ => Method.bare) =
      methods.map fun _ => Method.bare := by
  unfold linkListed
  split
  · refine IdMap.map_modify Method.bare ?_
    intro m
    rfl
  · rfl

theorem declared_linkServices (api : Api) : api.linkServices.state.declared = api.declared := by
  have hmethods : ∀ methods s, ((api.linkService methods s).state.1.map fun _ => Method.bare) =
      methods.map fun _ => Method.bare := by
    intro methods s
    exact Outcome.fold_frame (IdMap.map · fun _ => Method.bare) (map_bare_linkListed api s) _ _
  have hservice : ∀ methods s, (api.linkService methods s).state.2.bare = s.bare :=
    fun _ _ => rfl
  obtain ⟨hm, hs⟩ := IdMap.thread_frame (m := api.registry.services)
    (IdMap.map · fun _ => Method.bare) Service.bare hmethods hservice api.registry.methods
  unfold linkServices
  simp only [Outcome.map_state, declared, hm, hs]

theorem bare_withSamples (e : Enumeration) : e.withSamples.bare = e.bare := rfl

theorem bare_message_withSamples (m : Message) : m.withSamples.bare = m.bare := by
  simp [Message.withSamples, Message.bare, Function.comp_def, OneOf.bare]

theorem declared_withTraits (api : Api) : api.withTraits.declared = api.declared := by
  refine declared_with_methods ?_
  refine Outcome.foldl_frame (IdMap.map · fun _ => Method.bare) ?_ _ _
  intro methods t
  refine IdMap.map_modify Method.bare ?_
  intro m
  rfl

theorem declared_enriched (api : Api) : api.enriched.declared = api.declared := by
  unfold enriched
  rw [declared_withTraits]
  simp only [declared, IdMap.map_map, bare_withSamples, bare_message_withSamples]

theorem declared_crossReference (api : Api) : api.crossReference.state.declared = api.declared := by
  unfold crossReference
  refine Outcome.andThen_frame declared ?_ declared_enriched
  refine Outcome.andThen_frame declared ?_ declared_linkServices
  refine Outcome.andThen_frame declared ?_ declared_linkMethods
  exact Outcome.andThen_frame declared (declared_linkFields api) declared_linkEnums

/-! ## Pages and recursion -/

theorem declared_record (api : Api) (f : Pagination.Finding) :
    (Pagination.record api f).declared = api.declared := by
  have hmethods : ((api.registry.methods.modify f.methodId fun m =>
      { m with pagination := some f.pageToken }).map fun _ => Method.bare) =
        api.registry.methods.map fun _ => Method.bare :=
    IdMap.map_modify Method.bare fun _ => rfl
  have hmessages : ((api.registry.messages.modify f.responseId fun m =>
      { m with pagination := some f.info }).map fun _ => Message.bare) =
        api.registry.messages.map fun _ => Message.bare :=
    IdMap.map_modify Message.bare fun _ => rfl
  simp only [Pagination.record, declared, hmethods, hmessages]

theorem declared_paginate (api : Api) (overrides : List PaginationOverride) :
    (api.paginate overrides).declared = api.declared :=
  Outcome.foldl_frame declared declared_record api _

theorem declared_labelRecursive (api : Api) : api.labelRecursive.declared = api.declared := by
  have hmessage : ∀ m : Message, Message.bare { m with fields := m.fields.map fun f =>
      { f with recursive := api.recursiveFieldIds.contains f.id } } = m.bare := by
    intro m
    simp [Message.bare, Function.comp_def, Field.bare]
  refine declared_with_messages ?_
  rw [IdMap.map_map]
  simp only [hmessage]

/-! ## The selection -/

theorem keptServices_declared (api : Api) (s : Selection) :
    api.declared.keptServices s = (api.keptServices s).map fun _ => Service.bare :=
  IdMap.filter_map _ _ fun id => !(api.droppedServices s).contains id

theorem droppedMethods_declared (api : Api) (s : Selection) :
    api.declared.droppedMethods s = api.droppedMethods s := by
  have hservices : (api.droppedServices s).filterMap api.declared.service? =
      ((api.droppedServices s).filterMap api.service?).map Service.bare := by
    rw [List.map_filterMap]
    exact List.filterMap_congr fun id _ => service?_declared api id
  unfold droppedMethods
  rw [show api.declared.droppedServices s = api.droppedServices s from rfl, hservices,
    keptServices_declared, IdMap.values_map, List.flatMap_map, List.flatMap_map]
  rfl

/-- The selection goes by what is declared. -/
theorem declared_applySelection (api : Api) (s : Selection) :
    (api.applySelection s).declared = api.declared.applySelection s := by
  have hrestrict : ∀ service, (s.restrict service).bare = s.restrict service.bare := fun _ => rfl
  have hlists : ∀ m : Message,
      Message.bare { m with messages := m.messages.filter s.lists, enums := m.enums.filter s.lists } =
        { m.bare with
          messages := m.bare.messages.filter s.lists, enums := m.bare.enums.filter s.lists } :=
    fun _ => rfl
  unfold applySelection
  simp only [droppedMethods_declared, keptServices_declared]
  simp only [declared, IdMap.map_map, IdMap.filter_map _ _ fun id => !(api.droppedMethods s).contains id,
    hrestrict, hlists]

/-! ## Overrides -/

theorem declared_document (api : Api) (text : String) (element : DocumentedElement) :
    { api with registry := api.registry.document text element }.declared = api.declared := by
  cases element with
  | message id => exact declared_with_messages (IdMap.map_modify Message.bare fun _ => rfl)
  | enumeration id => exact declared_with_enums (IdMap.map_modify Enumeration.bare fun _ => rfl)
  | service id => exact declared_with_services (IdMap.map_modify Service.bare fun _ => rfl)
  | method id => exact declared_with_methods (IdMap.map_modify Method.bare fun _ => rfl)
  | field id i =>
    refine declared_with_messages (IdMap.map_modify Message.bare ?_)
    intro m
    have hfields := Outcome.map_list_modify Field.bare
      (f := fun f => { f with documentation := text }) (fun _ => rfl) m.fields i
    simp only [Message.bare, hfields]
  | value id i =>
    refine declared_with_enums (IdMap.map_modify Enumeration.bare ?_)
    intro e
    have hvalues := Outcome.map_list_modify EnumValue.bare
      (f := fun v => { v with documentation := text }) (fun _ => rfl) e.values i
    simp only [Enumeration.bare, hvalues]

theorem declared_overrideDocumentation (api : Api) (o : DocumentationOverride) :
    (api.overrideDocumentation o).state.declared = api.declared := by
  unfold overrideDocumentation
  dsimp only
  split
  · rfl
  · split
    · rfl
    · exact declared_document api _ _

theorem declared_overrideDocumentations (api : Api) (os : List DocumentationOverride) :
    (api.overrideDocumentations os).state.declared = api.declared :=
  Outcome.fold_frame declared declared_overrideDocumentation api os

theorem declared_applyOverrides (api : Api) (c : Config) :
    (api.applyOverrides c).declared = api.declared := by
  unfold applyOverrides
  cases c.nameOverride with
  | none => rfl
  | some name =>
    simp only [Option.elim_some, rename, declared, IdMap.map_map]
    rfl

/-! ## Targets -/

theorem map_assign (bindings : List PathBinding) (targets : List (Option TargetResource)) :
    (Target.assign bindings targets).map ({ · with target := none }) =
      bindings.map ({ · with target := none }) := by
  induction bindings generalizing targets with
  | nil => rfl
  | cons b rest ih =>
    cases targets with
    | nil => rfl
    | cons t targets => simp [Target.assign, ih]

theorem declared_record_targets (api : Api) (found : String × List (Option TargetResource)) :
    (Target.record api found).declared = api.declared := by
  refine declared_with_methods (IdMap.map_modify Method.bare ?_)
  intro m
  simp only [Method.bare, map_assign]

theorem declared_targetPass (api : Api) : api.targetPass.state.declared = api.declared := by
  unfold targetPass
  split
  · exact Outcome.foldl_frame declared declared_record_targets api _
  · rfl

theorem declared_identifyTargets {api api' : Api} (h : api.identifyTargets = .ok api') :
    api'.declared = api.declared := by
  obtain ⟨-, rfl⟩ := Outcome.toExcept_eq_ok_iff.1 h
  exact declared_targetPass api

end Api

end ApiModel
