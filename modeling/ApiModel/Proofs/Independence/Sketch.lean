import ApiModel.Proofs.Independence.Traits
import ApiModel.Proofs.Target.Recorded
import ApiModel.View

/-!
# Sketches of a model

A sketch of a cross-referenced model leaves out what its view does not show: the lists of types, the
links of services and methods apart from the request and the response, and the pages of messages that no
method returns.

Principal results:

* `overrideDocumentations_sketch`, `identifyTargets_sketch`, `applyOverrides_sketch` — the analyses behind
  cross-referencing go by the sketch;
* `view_sketch` — **the sketch shows what the model shows**.
-/

namespace ApiModel

open Outcome

/-! ## Changes of single elements -/

theorem IdMap.modify_map {α β : Type} {m : IdMap α} {φ : String → α → β} {id : String} {f : α → α}
    {g : β → β} (h : ∀ k a, g (φ k a) = φ k (f a)) :
    (m.map φ).modify id g = (m.modify id f).map φ := by
  apply ext
  intro x
  rw [get?_modify, get?_map, get?_map, get?_modify]
  split
  · rw [Option.map_map, Option.map_map]
    exact congrArg (Option.map · _) (funext (h x))
  · rfl

/-! ## Sketches -/

/-- The method with its links to its types only. -/
def Method.sketch (m : Method) : Method :=
  { m.unlinked with
    links := { inputType := m.links.inputType, outputType := m.links.outputType }
    traits := m.traits }

namespace Api

/-- The model without what its view does not show. -/
def sketch (seen : String → Bool) (api : Api) : Api :=
  { api with
    messages := []
    enums := []
    registry.messages := api.registry.messages.map (Message.blurred seen)
    registry.services := api.registry.services.map fun _ => Service.unlinked
    registry.methods := api.registry.methods.map fun _ => Method.sketch }

variable {seen : String → Bool} (api : Api)

theorem message?_sketch (id : String) :
    (api.sketch seen).message? id = (api.message? id).map (Message.blurred seen id) :=
  IdMap.get?_map _ _ _

theorem service?_sketch (id : String) :
    (api.sketch seen).service? id = (api.service? id).map Service.unlinked :=
  IdMap.get?_map _ _ _

theorem method?_sketch (id : String) :
    (api.sketch seen).method? id = (api.method? id).map Method.sketch :=
  IdMap.get?_map _ _ _

theorem methodsOf_sketch (s : Service) :
    (api.sketch seen).methodsOf s.unlinked = (api.methodsOf s).map Method.sketch := by
  unfold methodsOf
  rw [List.map_filterMap]
  exact List.filterMap_congr fun id _ => method?_sketch api id

/-! ## Documentation -/

theorem element?_sketch (id : String) :
    (api.sketch seen).registry.element? id = api.registry.element? id := by
  have hmember : (api.sketch seen).registry.member? id = api.registry.member? id := by
    unfold Registry.member?
    refine bind_congr fun cut => ?_
    have hmessage : (api.sketch seen).message? (String.ofList cut.1) = _ := message?_sketch api _
    unfold message? at hmessage
    simp only [hmessage]
    cases api.registry.messages.get? (String.ofList cut.1) with
    | none => rfl
    | some m => rfl
  unfold Registry.element?
  simp only [hmember]
  simp only [sketch, IdMap.contains_map]

theorem documentation?_sketch (element : DocumentedElement) :
    (api.sketch seen).registry.documentation? element = api.registry.documentation? element := by
  cases element with
  | message id => simp only [Registry.documentation?, sketch, IdMap.get?_map, Option.map_map]; rfl
  | enumeration id => rfl
  | service id => simp only [Registry.documentation?, sketch, IdMap.get?_map, Option.map_map]; rfl
  | method id => simp only [Registry.documentation?, sketch, IdMap.get?_map, Option.map_map]; rfl
  | field id i => simp only [Registry.documentation?, sketch, IdMap.get?_map, Option.bind_map]; rfl
  | value id i => rfl

theorem document_sketch (text : String) (element : DocumentedElement) :
    { api.sketch seen with registry := (api.sketch seen).registry.document text element } =
      ({ api with registry := api.registry.document text element } : Api).sketch seen := by
  cases element with
  | message id =>
    refine congrArg (fun messages => { api.sketch seen with registry.messages := messages }) ?_
    refine IdMap.modify_map ?_
    exact fun _ _ => rfl
  | enumeration id => rfl
  | service id =>
    refine congrArg (fun services => { api.sketch seen with registry.services := services }) ?_
    refine IdMap.modify_map (φ := fun _ => Service.unlinked) ?_
    exact fun _ _ => rfl
  | method id =>
    refine congrArg (fun methods => { api.sketch seen with registry.methods := methods }) ?_
    refine IdMap.modify_map (φ := fun _ => Method.sketch) ?_
    exact fun _ _ => rfl
  | field id i =>
    refine congrArg (fun messages => { api.sketch seen with registry.messages := messages }) ?_
    refine IdMap.modify_map ?_
    exact fun _ _ => rfl
  | value id i => rfl

theorem overrideDocumentation_sketch (o : DocumentationOverride) :
    (api.sketch seen).overrideDocumentation o = (api.overrideDocumentation o).map (sketch seen) := by
  unfold overrideDocumentation
  simp only [element?_sketch, documentation?_sketch, document_sketch]
  split
  · rfl
  · split <;> rfl

/-- Overriding documentation goes by the sketch. -/
theorem overrideDocumentations_sketch (os : List DocumentationOverride) :
    (api.sketch seen).overrideDocumentations os =
      (api.overrideDocumentations os).map (sketch seen) :=
  fold_natural overrideDocumentation_sketch api os

end Api

/-! ## Targets -/

namespace Target

variable {seen : String → Bool} (api : Api)

theorem vocabulary_sketch : vocabulary (api.sketch seen) = vocabulary api := by
  have hvalues : (api.sketch seen).registry.methods.values =
      api.registry.methods.values.map Method.sketch := IdMap.values_map _ _
  have hstandard : (api.sketch seen).registry.methods.values.filter (·.traits.isStandard) =
      (api.registry.methods.values.filter (·.traits.isStandard)).map Method.sketch := by
    rw [hvalues, List.filter_map]
    rfl
  unfold vocabulary
  rw [hstandard, List.flatMap_map]
  rfl

theorem request_sketch (m : Method) :
    request (api.sketch seen) m.sketch =
      (request api m).map (Message.blurred seen m.inputTypeId) := by
  unfold request
  rw [show m.sketch.inputTypeId = m.inputTypeId from rfl, Api.message?_sketch]
  cases api.message? m.inputTypeId <;> rfl

theorem fieldMessage?_sketch (f : Field) :
    (api.sketch seen).fieldMessage? f =
      (api.fieldMessage? f).map (Message.blurred seen (f.links.messageType.getD "")) := by
  unfold Api.fieldMessage?
  cases f.links.messageType with
  | none => rfl
  | some id => exact Api.message?_sketch api id

/-- A field path goes by the fields. -/
theorem follow_sketch (m : Method) (whole : String) (k : String) (message : Message)
    (path : List String) :
    follow (api.sketch seen) m.sketch whole (message.blurred seen k) path =
      follow api m whole message path := by
  induction path generalizing k message with
  | nil => rfl
  | cons name rest ih =>
    cases rest with
    | nil => rfl
    | cons next rest =>
      unfold follow
      rw [show (message.blurred seen k).field? name = message.field? name from rfl]
      refine bind_congr fun f => ?_
      rw [fieldMessage?_sketch]
      cases api.fieldMessage? f with
      | none => rfl
      | some inner => exact ih _ inner

theorem boundField_sketch (m : Method) (k : String) (input : Message) :
    boundField (api.sketch seen) m.sketch (input.blurred seen k) = boundField api m input :=
  funext fun v => follow_sketch api m v.fieldName k input v.fieldPath

theorem explicit?_sketch (s : Service) (m : Method) (path : PathTemplate) :
    explicit? (api.sketch seen) s.unlinked m.sketch path = explicit? api s m path := by
  unfold explicit?
  rw [request_sketch]
  cases request api m with
  | error e => rfl
  | ok input =>
    show path.boundVariables.mapM (boundField (api.sketch seen) m.sketch
      (input.blurred seen m.inputTypeId)) >>= _ = _
    rw [boundField_sketch]
    rfl

theorem byVocabulary?_sketch (s : Service) (m : Method) (path : PathTemplate)
    (words : List String) :
    byVocabulary? (api.sketch seen) s.unlinked m.sketch path words =
      byVocabulary? api s m path words := by
  unfold byVocabulary?
  rw [request_sketch, show s.unlinked.id = s.id from rfl]
  split
  · rfl
  · split
    · rfl
    · cases request api m with
      | error e => rfl
      | ok input =>
        show (firstPairs words path.segments).forM (fun p => discard (boundField
          (api.sketch seen) m.sketch (input.blurred seen m.inputTypeId) p.id)) >>= _ = _
        rw [boundField_sketch]
        rfl

theorem ofMethod_sketch (words : List String) (s : Service) (m : Method) :
    ofMethod (api.sketch seen) words s.unlinked m.sketch = ofMethod api words s m := by
  have hpath : ofPath (api.sketch seen) words s.unlinked m.sketch = ofPath api words s m := by
    funext path
    unfold ofPath
    rw [explicit?_sketch, byVocabulary?_sketch]
  unfold ofMethod
  rw [hpath]
  rfl

/-- The targets go by the sketch. -/
theorem all_sketch : all (api.sketch seen) = all api := by
  have hvalues : (api.sketch seen).registry.services.values =
      api.registry.services.values.map Service.unlinked := IdMap.values_map _ _
  have hservice : ∀ s : Service, ((api.sketch seen).methodsOf s.unlinked).mapM
      (ofMethod (api.sketch seen) (vocabulary api) s.unlinked) =
        (api.methodsOf s).mapM (ofMethod api (vocabulary api) s) := by
    intro s
    rw [Api.methodsOf_sketch, List.mapM_map]
    exact congrArg (List.mapM · _) (funext (ofMethod_sketch api _ s))
  unfold all
  simp only [vocabulary_sketch]
  rw [hvalues, List.mapM_map]
  simp only [Function.comp_def, hservice]

theorem record_sketch (found : String × List (Option TargetResource)) :
    record (api.sketch seen) found = (record api found).sketch seen := by
  refine congrArg (fun methods => { api.sketch seen with registry.methods := methods }) ?_
  refine IdMap.modify_map (φ := fun _ => Method.sketch) ?_
  exact fun _ _ => rfl

end Target

namespace Api

variable {seen : String → Bool} (api : Api)

/-- Identifying targets goes by the sketch. -/
theorem identifyTargets_sketch :
    (api.sketch seen).identifyTargets = api.identifyTargets.map (sketch seen) := by
  have hrecord : ∀ targets : List (String × List (Option TargetResource)),
      targets.foldl Target.record (api.sketch seen) =
        (targets.foldl Target.record api).sketch seen := by
    intro targets
    induction targets generalizing api with
    | nil => rfl
    | cons t rest ih => rw [List.foldl_cons, List.foldl_cons, Target.record_sketch, ih]
  unfold identifyTargets targetPass
  rw [Target.all_sketch]
  cases Target.all api with
  | error e => rfl
  | ok targets => exact congrArg Except.ok (hrecord targets)

/-- Overriding the texts of the model goes by the sketch. -/
theorem applyOverrides_sketch (c : Config) :
    (api.applyOverrides c).sketch seen =
      { api.sketch seen with
        name := c.nameOverride.getD (api.sketch seen).name
        title := c.titleOverride.getD (api.sketch seen).title
        description := c.descriptionOverride.getD (api.sketch seen).description } := by
  unfold applyOverrides
  cases c.nameOverride with
  | none => rfl
  | some name =>
    simp only [Option.elim_some, rename, sketch, IdMap.map_map]
    rfl

/-! ## Views -/

theorem input?_sketch (m : Method) :
    (api.sketch seen).input? m.sketch =
      (api.input? m).map (Message.blurred seen (m.links.inputType.getD "")) := by
  unfold input?
  rw [show m.sketch.links.inputType = m.links.inputType from rfl]
  cases m.links.inputType with
  | none => rfl
  | some id => exact message?_sketch api id

/-- The response, whose pages are seen. -/
theorem output?_sketch {m : Method} (h : ∀ id, m.links.outputType = some id → seen id = true) :
    ∃ f : Message → Message, (api.sketch seen).output? m.sketch = (api.output? m).map f ∧
      ∀ x, (f x).fields = x.fields ∧ (f x).pagination = x.pagination := by
  unfold output?
  rw [show m.sketch.links.outputType = m.links.outputType from rfl]
  cases hout : m.links.outputType with
  | none => exact ⟨id, rfl, fun _ => ⟨rfl, rfl⟩⟩
  | some out =>
    exact ⟨Message.blurred seen out, message?_sketch api out, fun x => ⟨rfl, if_pos (h out hout)⟩⟩

theorem paginationView?_sketch {m : Method}
    (h : ∀ id, m.links.outputType = some id → seen id = true) :
    (api.sketch seen).paginationView? m.sketch = api.paginationView? m := by
  have htoken : (api.sketch seen).pageTokenField? m.sketch = api.pageTokenField? m := by
    unfold pageTokenField?
    rw [input?_sketch]
    cases api.input? m <;> rfl
  obtain ⟨f, houtput, hf⟩ := output?_sketch api h
  have hfield : ∀ (x : Message) name, (f x).field? name = x.field? name := by
    intro x name
    unfold Message.field?
    rw [(hf x).1]
  have hitem : (api.sketch seen).pageItemField? m.sketch = api.pageItemField? m := by
    unfold pageItemField?
    rw [houtput]
    cases api.output? m with
    | none => rfl
    | some x =>
      show (f x).pagination.bind (fun info => (f x).field? info.pageableItem) = _
      simp only [(hf x).2, hfield]
      rfl
  unfold paginationView?
  rw [htoken, hitem, houtput]
  cases api.output? m with
  | none => rfl
  | some x =>
    refine bind_congr fun token => ?_
    show (f x).pagination.bind _ = x.pagination.bind _
    rw [(hf x).2]

theorem methodView_sketch {m : Method}
    (h : ∀ id, m.links.outputType = some id → seen id = true) :
    (api.sketch seen).methodView m.sketch = api.methodView m := by
  have hoperation : m.sketch.operation.map (·.view) = m.operation.map (·.view) := by
    simp only [Method.sketch, Method.unlinked, Option.map_map]
    rfl
  unfold methodView
  rw [paginationView?_sketch api h, hoperation]
  rfl

/-- **The sketch shows what the model shows**, if the pages of all responses are seen. -/
theorem view_sketch (h : ∀ id m, api.method? id = some m →
      ∀ out, m.links.outputType = some out → seen out = true) :
    (api.sketch seen).view = api.view := by
  have hservice : ∀ s : Service, (api.sketch seen).serviceView s.unlinked = api.serviceView s := by
    intro s
    have hmethods : ((api.sketch seen).methodsOf s.unlinked).map (api.sketch seen).methodView =
        (api.methodsOf s).map api.methodView := by
      rw [methodsOf_sketch, List.map_map]
      refine List.map_congr_left fun m hm => ?_
      obtain ⟨id, -, hid⟩ := List.mem_filterMap.1 hm
      exact methodView_sketch api (h id m hid)
    unfold serviceView
    rw [hmethods]
    rfl
  have hservices : api.services.filterMap (api.sketch seen).service? =
      (api.services.filterMap api.service?).map Service.unlinked := by
    rw [List.map_filterMap]
    exact List.filterMap_congr fun id _ => service?_sketch api id
  unfold view
  rw [show (api.sketch seen).services = api.services from rfl, hservices, List.map_map]
  simp only [Function.comp_def, hservice]
  rfl

end Api

end ApiModel
