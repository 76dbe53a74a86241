import ApiModel.Proofs.CrossReference.Settled

/-!
# Retouching

Behind cross-referencing a model is documented, gets targets and is renamed.  These edits write only
what no link, no sample and no trait goes by, besides the name of the model, which they write in every
place.

Principal results:

* `settled_edit` — a settled model stays so when it is retouched;
* `retouches_documenting`, `retouches_targeting`, `retouches_naming`, `retouches_retitling` — these
  edits retouch.
-/

namespace ApiModel

open Outcome

/-! ## Samples go by what is declared -/

theorem firstLeast_map {α β : Type} {f : α → β} {rank : α → Nat} {rank' : β → Nat}
    (h : ∀ a, rank' (f a) = rank a) (as : List α) :
    firstLeast rank' (as.map f) = (firstLeast rank as).map f := by
  induction as with
  | nil => rfl
  | cons a rest ih =>
    rw [List.map_cons, firstLeast, firstLeast, ih]
    cases firstLeast rank rest with
    | none => rfl
    | some b =>
      rw [Option.map_some]
      simp only [h]
      split <;> rfl

theorem OneOf.example?_bare (o : OneOf) (fields : List Field) :
    o.example? (fields.map Field.bare) = (o.example? fields).map Field.bare := by
  unfold example?
  rw [List.filter_map]
  exact firstLeast_map (fun _ => rfl) _

theorem EnumValue.firsts_bare (seen : List Int) (values : List EnumValue) :
    firsts seen (values.map EnumValue.bare) = (firsts seen values).map EnumValue.bare := by
  induction values generalizing seen with
  | nil => rfl
  | cons v rest ih =>
    simp only [List.map_cons, firsts]
    rw [show v.bare.number = v.number from rfl]
    split
    · exact ih seen
    · rw [ih, List.map_cons]

theorem EnumValue.examples_bare (values : List EnumValue) :
    examples (values.map EnumValue.bare) = (examples values).map EnumValue.bare := by
  have hnonZero : (values.map EnumValue.bare).filter (·.number != 0) =
      (values.filter (·.number != 0)).map EnumValue.bare := by
    rw [List.filter_map]
    rfl
  have hcurrent : ∀ values : List EnumValue, (values.map EnumValue.bare).filter (!·.deprecated) =
      (values.filter (!·.deprecated)).map EnumValue.bare := by
    intro values
    rw [List.filter_map]
    rfl
  unfold examples
  simp only [hnonZero, hcurrent, List.isEmpty_map]
  split
  · rfl
  · split <;> rfl

/-- The samples of a message go by its fields and its one-ofs. -/
theorem Message.oneOfs_withSamples_congr {m n : Message}
    (hfields : n.fields.map Field.bare = m.fields.map Field.bare) (honeOfs : n.oneOfs = m.oneOfs) :
    n.withSamples.oneOfs = m.withSamples.oneOfs := by
  have hid : ∀ (o : OneOf) (fields : List Field), (o.example? fields).map (·.id) =
      (o.example? (fields.map Field.bare)).map (·.id) := by
    intro o fields
    rw [OneOf.example?_bare, Option.map_map]
    rfl
  unfold withSamples
  simp only [honeOfs]
  refine List.map_congr_left fun o _ => ?_
  rw [hid, hfields, ← hid]

/-- The samples of an enumeration go by its values. -/
theorem Enumeration.withSamples_congr {x y : Enumeration}
    (h : y.values.map EnumValue.bare = x.values.map EnumValue.bare) :
    y.withSamples = { y with
      uniqueNumberValues := x.withSamples.uniqueNumberValues
      valuesForExamples := x.withSamples.valuesForExamples } := by
  have hname : ∀ values : List EnumValue, values.map (·.name) =
      (values.map EnumValue.bare).map (·.name) := by
    intro values
    rw [List.map_map]
    rfl
  have hfirsts : ∀ z : Enumeration, (EnumValue.firsts [] z.values).map (·.name) =
      (EnumValue.firsts [] (z.values.map EnumValue.bare)).map (·.name) := by
    intro z
    rw [EnumValue.firsts_bare, ← hname]
  have hexamples : ∀ z : Enumeration, (EnumValue.examples z.values).map (·.name) =
      (EnumValue.examples (z.values.map EnumValue.bare)).map (·.name) := by
    intro z
    rw [EnumValue.examples_bare, ← hname]
  unfold withSamples
  simp only [hfirsts, hexamples, h]

/-! ## Retouched elements -/

/-- The field with other documentation. -/
def Field.documented (text : String) (f : Field) : Field := { f with documentation := text }

/-- The value with other documentation. -/
def EnumValue.documented (text : String) (v : EnumValue) : EnumValue :=
  { v with documentation := text }

/-- The fields of a message, each with whether it is labelled as recursive. -/
def Message.labels (m : Message) : List (String × Bool) := m.fields.map fun f => (f.id, f.recursive)

/-- The other message is as far as the first one. -/
structure Message.Retouched (m n : Message) : Prop where
  linked : ∀ r : Registry, Idle r.linkMessage m → Idle r.linkMessage n
  shape : n.shape = m.shape
  sampled : m.withSamples = m → n.withSamples = n
  labels : n.labels = m.labels

/-- The other enumeration is as far as the first one. -/
structure Enumeration.Retouched (x y : Enumeration) : Prop where
  linked : x.linkValues = x → y.linkValues = y
  sampled : x.withSamples = x → y.withSamples = y

/-- The other method is as far as the first one. -/
structure Method.Retouched (m n : Method) : Prop where
  linked : ∀ r : Registry, Idle r.linkMethod m → Idle r.linkMethod n
  shape : n.shape = m.shape
  traits : n.traits = m.traits

theorem Message.Retouched.refl (m : Message) : m.Retouched m :=
  ⟨fun _ h => h, rfl, fun h => h, rfl⟩

theorem Enumeration.Retouched.refl (x : Enumeration) : x.Retouched x := ⟨fun h => h, fun h => h⟩

theorem Method.Retouched.refl (m : Method) : m.Retouched m := ⟨fun _ h => h, rfl, rfl⟩

/-- What keeps what samples go by keeps a sampled message sampled. -/
theorem Message.sampled_of_bare {m n : Message}
    (hfields : n.fields.map Field.bare = m.fields.map Field.bare) (honeOfs : n.oneOfs = m.oneOfs)
    (h : m.withSamples = m) : n.withSamples = n := by
  have hsamples := oneOfs_withSamples_congr hfields honeOfs
  rw [h, ← honeOfs] at hsamples
  show { n with oneOfs := n.withSamples.oneOfs } = n
  rw [hsamples]

theorem Message.retouched_document (m : Message) (text : String) :
    m.Retouched { m with documentation := text } where
  linked r h := by
    rw [Api.linkMessage_idle_iff] at h ⊢
    exact h
  shape := rfl
  sampled := sampled_of_bare rfl rfl
  labels := rfl

/-- Documenting a field and joining a group go past each other. -/
theorem joinGroup_modify (messageId text : String) (i : Nat) (fields : List Field)
    (member : String × String) :
    joinGroup messageId (fields.modify i (Field.documented text)) member =
      (joinGroup messageId fields member).map (·.modify i (Field.documented text)) := by
  have hids : (fields.modify i (Field.documented text)).map (·.id) =
      fields.map (·.id) := map_list_modify (f := Field.documented text) Field.id (fun _ => rfl) fields i
  refine Outcome.ext ?_ ?_
  · rw [map_state, Api.joinGroup_state, Api.joinGroup_state, Api.fieldPlace_congr hids]
    by_cases hplace : i = Api.fieldPlace fields member.2
    · rw [hplace, List.modify_modify_eq, List.modify_modify_eq]
      rfl
    · exact List.modify_modify_ne _ _ _ hplace
  · rw [map_defect, Api.joinGroup_defect, Api.joinGroup_defect, hids]

theorem Message.retouched_documentField (m : Message) (i : Nat) (text : String) :
    m.Retouched { m with fields := m.fields.modify i (Field.documented text) } := by
  have hbare : (m.fields.modify i (Field.documented text)).map Field.bare =
      m.fields.map Field.bare :=
    map_list_modify (f := Field.documented text) Field.bare (fun _ => rfl) m.fields i
  refine ⟨fun r h => ?_, ?_, ?_, ?_⟩
  · rw [Api.linkMessage_idle_iff] at h ⊢
    simp only [Registry.fieldPasses, List.forall_mem_cons, List.not_mem_nil, false_implies,
      implies_true, and_true] at h ⊢
    obtain ⟨hfields, hgroups⟩ := h
    constructor
    · rw [sweep_idle_iff] at hfields ⊢
      intro f hf
      obtain ⟨n, hn⟩ := List.mem_iff_getElem?.1 hf
      rw [List.getElem?_modify] at hn
      obtain ⟨g, hg, rfl⟩ := Option.map_eq_some_iff.1 hn
      have hidle := hfields g (List.mem_iff_getElem?.2 ⟨n, hg⟩)
      split
      · unfold Idle at hidle ⊢
        have hcomm : r.linkField m.id (g.documented text) =
            (r.linkField m.id g).map (Field.documented text) := by
          unfold Registry.linkField Field.documented
          dsimp only
          split
          · split <;> rfl
          · split <;> rfl
          · rfl
        rw [hcomm, hidle]
        rfl
      · exact hidle
    · have hfold := fold_natural (joinGroup_modify m.id text i) m.fields m.groupMembers
      have hidle : fold (joinGroup m.id) m.fields m.groupMembers = ⟨m.fields, none⟩ := hgroups
      show fold (joinGroup m.id) _ m.groupMembers = _
      rw [hfold, hidle]
      rfl
  · refine Message.shape_eq_of_bare ?_ rfl
    unfold Message.bare
    rw [hbare]
  · exact sampled_of_bare hbare rfl
  · exact map_list_modify (f := Field.documented text) (fun f : Field => (f.id, f.recursive))
      (fun _ => rfl) m.fields i

theorem Enumeration.retouched_document (x : Enumeration) (text : String) :
    x.Retouched { x with documentation := text } where
  linked h := by
    have hvalues := congrArg Enumeration.values h
    show { x with documentation := text, values := x.linkValues.values } = _
    rw [hvalues]
  sampled h := congrArg ({ · with documentation := text } : Enumeration → Enumeration) h

theorem Enumeration.retouched_documentValue (x : Enumeration) (i : Nat) (text : String) :
    x.Retouched { x with values := x.values.modify i (EnumValue.documented text) } := by
  have hbare : (x.values.modify i (EnumValue.documented text)).map EnumValue.bare =
      x.values.map EnumValue.bare :=
    map_list_modify (f := EnumValue.documented text) EnumValue.bare (fun _ => rfl) x.values i
  constructor
  · intro h
    have hvalues : ∀ v ∈ x.values, v.parent = some x.id := by
      intro v hv
      rw [← h] at hv
      obtain ⟨w, -, rfl⟩ := List.mem_map.1 hv
      rfl
    have hmodified : ∀ v ∈ x.values.modify i (EnumValue.documented text),
        ({ v with parent := some x.id } : EnumValue) = v := by
      intro v hv
      have hparent : v.parent ∈ x.values.map (·.parent) := by
        rw [← map_list_modify (f := EnumValue.documented text) EnumValue.parent (fun _ => rfl) x.values i]
        exact List.mem_map_of_mem hv
      obtain ⟨w, hw, hwv⟩ := List.mem_map.1 hparent
      rw [← hvalues w hw, hwv]
    unfold linkValues
    rw [List.map_congr_left hmodified]
    simp
  · intro h
    rw [withSamples_congr hbare, h]

theorem Method.retouched_document (m : Method) (text : String) :
    m.Retouched { m with documentation := text } where
  linked _ := Api.linkMethod_idle_of_commutes ({ · with documentation := text }) rfl rfl rfl
  shape := rfl
  traits := rfl

theorem Method.retouched_assign (m : Method) (targets : List (Option TargetResource)) :
    m.Retouched
      { m with pathInfo.bindings := Target.assign m.pathInfo.bindings targets } where
  linked _ := Api.linkMethod_idle_of_commutes
    (fun m => { m with pathInfo.bindings := Target.assign m.pathInfo.bindings targets }) rfl rfl rfl
  shape := by
    refine Method.shape_eq_of_bare ?_ rfl
    simp only [Method.bare, Api.map_assign]
  traits := rfl

theorem Method.retouched_rename (m : Method) (name : String) :
    m.Retouched { m with links.model := some name } where
  linked _ := Api.linkMethod_idle_of_commutes (fun m => { m with links.model := some name })
    rfl rfl rfl
  shape := rfl
  traits := rfl

/-! ## Retouching edits -/

/-- The edit changes nothing that a settled model is settled by. -/
structure Edit.Retouches (e : Edit) : Prop extends e.SparesServices where
  message : ∀ id (m : Message), m.Retouched (e.message id m)
  enumeration : ∀ id (x : Enumeration), x.Retouched (e.enumeration id x)
  method : ∀ id (m : Method), m.Retouched (e.method id m)

namespace Edit

variable {e : Edit}

theorem Retouches.sparesLinks (h : e.Retouches) : e.SparesLinks where
  toSparesServices := h.toSparesServices
  message r id m := (h.message id m).linked r
  enumeration id x := (h.enumeration id x).linked
  method r id m := (h.method id m).linked r

theorem Retouches.keepsShapes (h : e.Retouches) : e.KeepsShapes where
  message id m := (h.message id m).shape
  method id m := (h.method id m).shape

end Edit

namespace Api

variable {api : Api} {e : Edit}

/-- Nothing is left to be filled in. -/
theorem enrichPass_idle_iff :
    Idle enrichPass api ↔
      (∀ id m, api.message? id = some m → m.withSamples = m) ∧
      (∀ id x, api.enum? id = some x → x.withSamples = x) ∧
      ∀ id m, api.method? id = some m → latestTraits api.foundTraits id m.traits = m.traits := by
  have hmethods : (api.registry.methods.map api.enriching.method = api.registry.methods) ↔
      ∀ id m, api.method? id = some m → latestTraits api.foundTraits id m.traits = m.traits := by
    rw [IdMap.map_eq_self_iff]
    refine forall₃_congr fun id m _ => ?_
    constructor
    · intro h
      exact congrArg Method.traits h
    · intro h
      show { m with traits := latestTraits api.foundTraits id m.traits } = m
      rw [h]
  have hmessages : (api.registry.messages.map api.enriching.message = api.registry.messages) ↔
      ∀ id m, api.message? id = some m → m.withSamples = m := IdMap.map_eq_self_iff
  have henums : (api.registry.enums.map api.enriching.enumeration = api.registry.enums) ↔
      ∀ id x, api.enum? id = some x → x.withSamples = x := IdMap.map_eq_self_iff
  rw [← hmethods, ← hmessages, ← henums]
  unfold Idle enrichPass
  rw [enriched_eq_edit]
  constructor
  · intro h
    have hstate := congrArg Outcome.state h
    exact ⟨congrArg (fun api => api.registry.messages) hstate,
      congrArg (fun api => api.registry.enums) hstate,
      congrArg (fun api => api.registry.methods) hstate⟩
  · rintro ⟨hmessages, henums, hmethods⟩
    have hservices : api.registry.services.map api.enriching.service = api.registry.services :=
      IdMap.map_self _
    unfold edit
    rw [hmessages, henums, hmethods, hservices]
    rfl

theorem enrichPass_idle_edit (h : e.Retouches) (hidle : Idle enrichPass api) :
    Idle enrichPass (api.edit e) := by
  obtain ⟨hmessages, henums, hmethods⟩ := enrichPass_idle_iff.1 hidle
  refine enrichPass_idle_iff.2 ⟨?_, ?_, ?_⟩
  · exact IdMap.forall_map.2 fun id m hm => (h.message id m).sampled (hmessages id m hm)
  · exact IdMap.forall_map.2 fun id x hx => (h.enumeration id x).sampled (henums id x hx)
  · refine IdMap.forall_map.2 fun id m hm => ?_
    rw [foundTraits_edit h.keepsShapes, (h.method id m).traits]
    exact hmethods id m hm

/-- **A settled model stays settled when it is retouched.** -/
theorem settled_edit (h : e.Retouches) (hsettled : api.Settled) : (api.edit e).Settled := by
  simp only [Settled, passes, List.forall_mem_cons, List.not_mem_nil, false_implies, implies_true,
    and_true] at hsettled ⊢
  obtain ⟨hfields, henums, hmethods, hservices, henriched⟩ := hsettled
  exact ⟨linkFields_idle_edit h.sparesLinks hfields, enumPass_idle_edit h.sparesLinks henums,
    linkMethods_idle_edit h.sparesLinks hmethods, linkServices_idle_edit h.toSparesServices hservices,
    enrichPass_idle_edit h henriched⟩

end Api

/-! ## Documentation, targets and names -/

/-- A change of the element with an ID. -/
def onlyAt {α : Type} (id : String) (f : α → α) (k : String) (a : α) : α := if k = id then f a else a

theorem onlyAt_related {α : Type} {R : α → α → Prop} (hrefl : ∀ a, R a a) {f : α → α}
    (hf : ∀ a, R a (f a)) (id k : String) (a : α) : R a (onlyAt id f k a) := by
  unfold onlyAt
  split
  · exact hf a
  · exact hrefl a

namespace Edit

/-- Documents an element. -/
def documenting (text : String) : DocumentedElement → Edit
  | .message id => { message := onlyAt id ({ · with documentation := text }) }
  | .enumeration id => { enumeration := onlyAt id ({ · with documentation := text }) }
  | .service id => { service := onlyAt id ({ · with documentation := text }) }
  | .method id => { method := onlyAt id ({ · with documentation := text }) }
  | .field id i => { message := onlyAt id fun m =>
      { m with fields := m.fields.modify i (Field.documented text) } }
  | .value id i => { enumeration := onlyAt id fun x =>
      { x with values := x.values.modify i (EnumValue.documented text) } }

/-- Records the targets of a method. -/
def targeting (found : String × List (Option TargetResource)) : Edit :=
  { method := onlyAt found.1 fun m =>
      { m with pathInfo.bindings := Target.assign m.pathInfo.bindings found.2 } }

/-- Renames the model. -/
def naming (name : String) : Edit :=
  { name := fun _ => name
    service := fun _ s => { s with model := some name }
    method := fun _ m => { m with links.model := some name } }

/-- Changes the title and the description of the model. -/
def retitling (title description : String → String) : Edit := { title, description }

theorem retouches_messages {f : String → Message → Message}
    (h : ∀ id (m : Message), m.Retouched (f id m)) : Retouches { message := f } where
  methods _ _ := rfl
  model _ _ _ := rfl
  join _ _ _ _ _ := by
    unfold Method.joinService
    simp only [Api.edit, IdMap.contains_map]
  message := h
  enumeration _ x := .refl x
  method _ m := .refl m

theorem retouches_enums {f : String → Enumeration → Enumeration}
    (h : ∀ id (x : Enumeration), x.Retouched (f id x)) : Retouches { enumeration := f } where
  methods _ _ := rfl
  model _ _ _ := rfl
  join _ _ _ _ _ := by
    unfold Method.joinService
    simp only [Api.edit, IdMap.contains_map]
  message _ m := .refl m
  enumeration := h
  method _ m := .refl m

/-- What changes single methods apart from their links retouches. -/
theorem retouches_methods {id : String} {f : Method → Method} (h : ∀ m : Method, m.Retouched (f m))
    (hjoin : ∀ api s m, (f m).joinService api s = f (m.joinService api s)) :
    Retouches { method := onlyAt id f } where
  methods _ _ := rfl
  model _ _ _ := rfl
  join api _ s listed m := by
    have hedit : ∀ m : Method,
        m.joinService (api.edit { method := onlyAt id f }) s = m.joinService api s := by
      intro m
      unfold Method.joinService
      simp only [Api.edit, IdMap.contains_map]
    rw [hedit]
    simp only [onlyAt]
    split
    · exact hjoin api s m
    · rfl
  message _ m := .refl m
  enumeration _ x := .refl x
  method := onlyAt_related Method.Retouched.refl h id

theorem retouches_documenting (text : String) (element : DocumentedElement) :
    (documenting text element).Retouches := by
  cases element with
  | message id =>
    exact retouches_messages (onlyAt_related Message.Retouched.refl
      (Message.retouched_document · text) id)
  | enumeration id =>
    exact retouches_enums (onlyAt_related Enumeration.Retouched.refl
      (Enumeration.retouched_document · text) id)
  | service id =>
    refine ⟨⟨?_, ?_, ?_⟩, fun _ m => .refl m, fun _ x => .refl x, fun _ m => .refl m⟩
    · intro k s
      simp only [documenting, onlyAt]
      split <;> rfl
    · intro k s name
      simp only [documenting, onlyAt]
      split <;> rfl
    · intro api k s listed m
      unfold Method.joinService
      simp only [documenting, onlyAt, Api.edit, IdMap.contains_map]
      split <;> rfl
  | method id => exact retouches_methods (Method.retouched_document · text) fun _ _ _ => rfl
  | field id i =>
    exact retouches_messages (onlyAt_related Message.Retouched.refl
      (Message.retouched_documentField · i text) id)
  | value id i =>
    exact retouches_enums (onlyAt_related Enumeration.Retouched.refl
      (Enumeration.retouched_documentValue · i text) id)

theorem retouches_targeting (found : String × List (Option TargetResource)) :
    (targeting found).Retouches :=
  retouches_methods (Method.retouched_assign · found.2) fun _ _ _ => rfl

theorem retouches_naming (name : String) : (naming name).Retouches where
  methods _ _ := rfl
  model _ _ _ := rfl
  join _ _ _ _ _ := by
    unfold Method.joinService
    simp only [naming, Api.edit, IdMap.contains_map]
  message _ m := .refl m
  enumeration _ x := .refl x
  method _ m := Method.retouched_rename m name

theorem retouches_retitling (title description : String → String) :
    (retitling title description).Retouches where
  methods _ _ := rfl
  model _ _ _ := rfl
  join _ _ _ _ _ := by
    unfold Method.joinService
    simp only [retitling, Api.edit, IdMap.contains_map]
  message _ m := .refl m
  enumeration _ x := .refl x
  method _ m := .refl m

end Edit

namespace Api

variable (api : Api)

theorem edit_documenting (text : String) (element : DocumentedElement) :
    api.edit (.documenting text element) =
      { api with registry := api.registry.document text element } := by
  cases element <;>
    simp only [edit, Edit.documenting, Registry.document, IdMap.map_self] <;> rfl

theorem edit_targeting (found : String × List (Option TargetResource)) :
    api.edit (.targeting found) = Target.record api found := by
  simp only [edit, Edit.targeting, IdMap.map_self]
  rfl

theorem edit_naming (name : String) : api.edit (.naming name) = api.rename name := by
  simp only [edit, Edit.naming, IdMap.map_self]
  rfl

theorem edit_retitling (title description : String → String) :
    api.edit (.retitling title description) =
      { api with title := title api.title, description := description api.description } := by
  simp only [edit, Edit.retitling, IdMap.map_self]

/-- What holds of a model and stays when it is retouched. -/
def Lasting (P : Api → Prop) : Prop := ∀ api e, Edit.Retouches e → P api → P (api.edit e)

variable {api} {P : Api → Prop}

theorem Lasting.overrideDocumentations (hP : Lasting P) (h : P api)
    (os : List DocumentationOverride) : P (api.overrideDocumentations os).state := by
  refine fold_inv P h fun api hapi o _ => ?_
  unfold overrideDocumentation
  dsimp only
  split
  · exact hapi
  · split
    · exact hapi
    · rw [← edit_documenting]
      exact hP api _ (Edit.retouches_documenting _ _) hapi

theorem Lasting.identifyTargets (hP : Lasting P) (h : P api) {found : Api}
    (hfound : api.identifyTargets = .ok found) : P found := by
  obtain ⟨-, rfl⟩ := Outcome.toExcept_eq_ok_iff.1 hfound
  unfold targetPass
  split
  · refine List.foldlRecOn _ Target.record h fun api hapi t _ => ?_
    rw [← edit_targeting]
    exact hP api _ (Edit.retouches_targeting t) hapi
  · exact h

theorem Lasting.applyOverrides (hP : Lasting P) (h : P api) (c : Config) :
    P (api.applyOverrides c) := by
  have hname : P (c.nameOverride.elim api api.rename) := by
    cases c.nameOverride with
    | none => exact h
    | some name =>
      rw [Option.elim_some, ← edit_naming]
      exact hP api _ (Edit.retouches_naming name) h
  have htitle := hP _ _
    (Edit.retouches_retitling (c.titleOverride.getD ·) (c.descriptionOverride.getD ·)) hname
  rwa [edit_retitling] at htitle

end Api

end ApiModel
