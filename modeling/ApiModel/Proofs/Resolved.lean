import ApiModel.Proofs.Declared

/-!
# Models whose references resolve

`Api.Resolved` says that every reference that cross-referencing follows leads to something that is
registered.

Principal results:

* `resolved_declared` — whether a model is resolved depends on what is declared only;
* `crossReference_defect_eq_none_iff` — cross-referencing meets no defect if and only if the model is
  resolved.
-/

namespace ApiModel

/-- The types of the fields and the members of the one-ofs of a message are found. -/
structure Message.Resolves (r : Registry) (m : Message) : Prop where
  messageTypes : ∀ f ∈ m.fields, f.kind = .message → r.messages.contains f.typeId = true
  enumTypes : ∀ f ∈ m.fields, f.kind = .enumeration → r.enums.contains f.typeId = true
  members : ∀ o ∈ m.oneOfs, ∀ id ∈ o.fields, ∃ f ∈ m.fields, f.id = id

/-- The request and the response of a method are found. -/
structure Method.Resolves (r : Registry) (m : Method) : Prop where
  input : r.messages.contains m.inputTypeId = true
  output : r.messages.contains m.outputTypeId = true

namespace Api

/-- The references of every registered message are found. -/
def MessagesResolve (api : Api) : Prop :=
  ∀ id m, api.message? id = some m → m.Resolves api.registry

def MethodsResolve (api : Api) : Prop := ∀ id m, api.method? id = some m → m.Resolves api.registry

/-- The methods that a registered service lists are registered. -/
def ServicesResolve (api : Api) : Prop :=
  ∀ id s, api.service? id = some s →
    ∀ listed ∈ s.methods, api.registry.methods.contains listed = true

/-- The references of every registered element are found. -/
structure Resolved (api : Api) : Prop where
  messages : api.MessagesResolve
  methods : api.MethodsResolve
  services : api.ServicesResolve

/-! ## What is declared decides -/

theorem resolves_bare_message {api : Api} {m : Message} :
    m.bare.Resolves api.declared.registry ↔ m.Resolves api.registry := by
  constructor
  · intro h
    refine ⟨?_, ?_, ?_⟩
    · intro f hf hkind
      have := h.messageTypes f.bare (List.mem_map_of_mem hf) hkind
      rwa [contains_messages_declared] at this
    · intro f hf hkind
      have := h.enumTypes f.bare (List.mem_map_of_mem hf) hkind
      rwa [contains_enums_declared] at this
    · intro o ho id hid
      obtain ⟨f, hf, hfid⟩ := h.members o.bare (List.mem_map_of_mem ho) id hid
      obtain ⟨g, hg, rfl⟩ := List.mem_map.1 hf
      exact ⟨g, hg, hfid⟩
  · intro h
    refine ⟨?_, ?_, ?_⟩
    · intro f hf hkind
      obtain ⟨g, hg, rfl⟩ := List.mem_map.1 hf
      rw [contains_messages_declared]
      exact h.messageTypes g hg hkind
    · intro f hf hkind
      obtain ⟨g, hg, rfl⟩ := List.mem_map.1 hf
      rw [contains_enums_declared]
      exact h.enumTypes g hg hkind
    · intro o ho id hid
      obtain ⟨p, hp, rfl⟩ := List.mem_map.1 ho
      obtain ⟨f, hf, hfid⟩ := h.members p hp id hid
      exact ⟨f.bare, List.mem_map_of_mem hf, hfid⟩

theorem resolves_bare_method {api : Api} {m : Method} :
    m.bare.Resolves api.declared.registry ↔ m.Resolves api.registry := by
  have hinput := contains_messages_declared api m.inputTypeId
  have houtput := contains_messages_declared api m.outputTypeId
  constructor
  · intro h
    exact ⟨hinput.symm.trans h.input, houtput.symm.trans h.output⟩
  · intro h
    exact ⟨hinput.trans h.input, houtput.trans h.output⟩

theorem messagesResolve_declared {api : Api} :
    api.declared.MessagesResolve ↔ api.MessagesResolve := by
  constructor
  · intro h id m hm
    exact resolves_bare_message.1 (h id _ (by rw [message?_declared, hm]; rfl))
  · intro h id m hm
    rw [message?_declared] at hm
    obtain ⟨n, hn, rfl⟩ := Option.map_eq_some_iff.1 hm
    exact resolves_bare_message.2 (h id n hn)

theorem methodsResolve_declared {api : Api} :
    api.declared.MethodsResolve ↔ api.MethodsResolve := by
  constructor
  · intro h id m hm
    exact resolves_bare_method.1 (h id _ (by rw [method?_declared, hm]; rfl))
  · intro h id m hm
    rw [method?_declared] at hm
    obtain ⟨n, hn, rfl⟩ := Option.map_eq_some_iff.1 hm
    exact resolves_bare_method.2 (h id n hn)

theorem servicesResolve_declared {api : Api} :
    api.declared.ServicesResolve ↔ api.ServicesResolve := by
  constructor
  · intro h id s hs listed hlisted
    have hreg := h id s.bare (by rw [service?_declared, hs]; rfl) listed hlisted
    rwa [contains_methods_declared] at hreg
  · intro h id s hs listed hlisted
    rw [service?_declared] at hs
    obtain ⟨t, ht, rfl⟩ := Option.map_eq_some_iff.1 hs
    rw [contains_methods_declared]
    exact h id t ht listed hlisted

/-- Whether a model is resolved depends on what is declared only. -/
theorem resolved_declared {api : Api} : api.declared.Resolved ↔ api.Resolved := by
  constructor
  · rintro ⟨hmessages, hmethods, hservices⟩
    exact ⟨messagesResolve_declared.1 hmessages, methodsResolve_declared.1 hmethods,
      servicesResolve_declared.1 hservices⟩
  · rintro ⟨hmessages, hmethods, hservices⟩
    exact ⟨messagesResolve_declared.2 hmessages, methodsResolve_declared.2 hmethods,
      servicesResolve_declared.2 hservices⟩

/-! ## Messages -/

theorem linkField_defect_eq_none_iff {r : Registry} {messageId : String} {f : Field} :
    (r.linkField messageId f).defect = none ↔
      (f.kind = .message → r.messages.contains f.typeId = true) ∧
        (f.kind = .enumeration → r.enums.contains f.typeId = true) := by
  unfold Registry.linkField
  dsimp only
  split
  · rename_i hkind
    split <;> rename_i hreg <;> simp [hkind, hreg]
  · rename_i hkind
    split <;> rename_i hreg <;> simp [hkind, hreg]
  · rename_i hmessage henum
    exact ⟨fun _ => ⟨fun h => absurd h hmessage, fun h => absurd h henum⟩, fun _ => rfl⟩

theorem linkField_id (r : Registry) (messageId : String) (f : Field) :
    (r.linkField messageId f).state.id = f.id := by
  have hbare := congrArg Field.id (bare_linkField r messageId f)
  exact hbare

theorem map_id_joinGroup (messageId : String) (fields : List Field) (member : String × String) :
    (joinGroup messageId fields member).state.map (·.id) = fields.map (·.id) := by
  have hbare := congrArg (List.map Field.id) (map_bare_joinGroup messageId fields member)
  simpa [Function.comp_def, Field.bare] using hbare

theorem joinGroup_defect_eq_none_iff {messageId : String} {fields : List Field}
    {member : String × String} :
    (joinGroup messageId fields member).defect = none ↔ member.2 ∈ fields.map (·.id) := by
  have hfind : fields.findIdx? (·.id == member.2) = none ↔ member.2 ∉ fields.map (·.id) := by
    simp [List.findIdx?_eq_none_iff]
  unfold joinGroup
  dsimp only
  split
  · rename_i hnone
    simpa using hfind.1 hnone
  · rename_i i hsome
    have hmem : member.2 ∈ fields.map (·.id) := by
      by_contra hnot
      rw [hfind.2 hnot] at hsome
      cases hsome
    simpa using hmem

theorem mem_groupMembers {m : Message} {member : String × String} :
    member ∈ m.groupMembers ↔ ∃ o ∈ m.oneOfs, o.id = member.1 ∧ member.2 ∈ o.fields := by
  obtain ⟨oneOfId, fieldId⟩ := member
  simp only [Message.groupMembers, List.mem_flatMap, List.mem_map, Prod.mk.injEq]
  constructor
  · rintro ⟨o, ho, id, hid, rfl, rfl⟩
    exact ⟨o, ho, rfl, hid⟩
  · rintro ⟨o, ho, rfl, hid⟩
    exact ⟨o, ho, fieldId, hid, rfl, rfl⟩

/-- Joining the groups meets no defect if every member is a field; the IDs of the fields stay. -/
theorem fold_joinGroup_defect_eq_none_iff {messageId : String} {m : Message} {fields : List Field}
    (hids : fields.map (·.id) = m.fields.map (·.id)) :
    (Outcome.fold (joinGroup messageId) fields m.groupMembers).defect = none ↔
      ∀ o ∈ m.oneOfs, ∀ id ∈ o.fields, ∃ f ∈ m.fields, f.id = id := by
  have hstep : ∀ fields : List Field, fields.map (·.id) = m.fields.map (·.id) →
      ∀ member ∈ m.groupMembers,
        (joinGroup messageId fields member).state.map (·.id) = m.fields.map (·.id) ∧
        ((joinGroup messageId fields member).defect = none ↔
          member.2 ∈ m.fields.map (·.id)) := by
    intro fields hids member _
    exact ⟨by rw [map_id_joinGroup, hids], by rw [joinGroup_defect_eq_none_iff, hids]⟩
  rw [(Outcome.fold_spec (fun fields => fields.map (·.id) = m.fields.map (·.id))
    (fun member => member.2 ∈ m.fields.map (·.id)) hids hstep).2]
  constructor
  · intro h o ho id hid
    exact List.mem_map.1 (h (o.id, id) (mem_groupMembers.2 ⟨o, ho, rfl, hid⟩))
  · intro h member hmember
    obtain ⟨o, ho, -, hid⟩ := mem_groupMembers.1 hmember
    exact List.mem_map.2 (h o ho member.2 hid)

theorem linkMessage_defect_eq_none_iff {r : Registry} {m : Message} :
    (r.linkMessage m).defect = none ↔ m.Resolves r := by
  have hids : (Outcome.sweep (r.linkField m.id) m.fields).state.map (·.id) =
      m.fields.map (·.id) := Outcome.map_sweep_state Field.id (linkField_id r m.id) m.fields
  unfold Registry.linkMessage
  rw [Outcome.map_defect, Outcome.andThen_defect_eq_none_iff, Outcome.sweep_defect_eq_none_iff,
    fold_joinGroup_defect_eq_none_iff hids]
  simp only [linkField_defect_eq_none_iff]
  constructor
  · rintro ⟨hfields, hmembers⟩
    exact ⟨fun f hf => (hfields f hf).1, fun f hf => (hfields f hf).2, hmembers⟩
  · rintro ⟨hmessages, henums, hmembers⟩
    exact ⟨fun f hf => ⟨hmessages f hf, henums f hf⟩, hmembers⟩

theorem linkFields_defect_eq_none_iff {api : Api} :
    api.linkFields.defect = none ↔ api.MessagesResolve := by
  unfold linkFields
  rw [Outcome.map_defect, IdMap.sweep_defect_eq_none_iff]
  simp only [linkMessage_defect_eq_none_iff]
  rfl

/-! ## Methods and services -/

theorem linkMethods_defect_eq_none_iff {api : Api} :
    api.linkMethods.defect = none ↔ api.MethodsResolve := by
  have hmethod : ∀ m, (api.registry.linkMethod m).defect = none ↔ m.Resolves api.registry := by
    intro m
    unfold Registry.linkMethod
    split
    · rename_i hinput
      simp only [reduceCtorEq, false_iff]
      intro h
      simp [h.input] at hinput
    · rename_i hinput
      split
      · rename_i houtput
        simp only [reduceCtorEq, false_iff]
        intro h
        simp [h.output] at houtput
      · rename_i houtput
        simp only [true_iff]
        exact ⟨by simpa using hinput, by simpa using houtput⟩
  unfold linkMethods
  rw [Outcome.map_defect, IdMap.sweep_defect_eq_none_iff]
  simp only [hmethod]
  rfl

/-- Linking services drops and adds no method. -/
theorem keys_linkListed (api : Api) (s : Service) (methods : IdMap Method) (id : String) :
    (api.linkListed s methods id).state.keys = methods.keys := by
  unfold linkListed
  split
  · exact IdMap.keys_modify _ _ _
  · rfl

theorem contains_of_keys_eq {α β : Type} {m : IdMap α} {n : IdMap β} (h : m.keys = n.keys)
    (id : String) : m.contains id = n.contains id := by
  rw [Bool.eq_iff_iff, ← IdMap.mem_keys_iff, ← IdMap.mem_keys_iff, h]

theorem linkServices_defect_eq_none_iff {api : Api} :
    api.linkServices.defect = none ↔ api.ServicesResolve := by
  have hlisted : ∀ s (methods : IdMap Method), methods.keys = api.registry.methods.keys →
      ∀ listed ∈ s.methods, (api.linkListed s methods listed).state.keys = api.registry.methods.keys ∧
        ((api.linkListed s methods listed).defect = none ↔
          api.registry.methods.contains listed = true) := by
    intro s methods hkeys listed _
    refine ⟨by rw [keys_linkListed, hkeys], ?_⟩
    rw [← contains_of_keys_eq hkeys]
    unfold linkListed
    split <;> rename_i hreg <;> simp [hreg]
  have hservice : ∀ methods : IdMap Method, methods.keys = api.registry.methods.keys →
      ∀ s ∈ api.registry.services.values,
        (api.linkService methods s).state.1.keys = api.registry.methods.keys ∧
        ((api.linkService methods s).defect = none ↔
          ∀ listed ∈ s.methods, api.registry.methods.contains listed = true) := by
    intro methods hkeys s _
    exact Outcome.fold_spec (fun methods : IdMap Method => methods.keys = api.registry.methods.keys)
      (fun listed => api.registry.methods.contains listed = true) hkeys (hlisted s)
  unfold linkServices
  rw [Outcome.map_defect]
  exact (IdMap.thread_spec
    (fun methods : IdMap Method => methods.keys = api.registry.methods.keys) _ rfl hservice).2

/-! ## The whole pass -/

/-- **Cross-referencing meets no defect if and only if the model is resolved.** -/
theorem crossReference_defect_eq_none_iff {api : Api} :
    api.crossReference.defect = none ↔ api.Resolved := by
  have henums : (api.linkFields.andThen fun api => ⟨api.linkEnums, none⟩).state.declared =
      api.declared :=
    Outcome.andThen_frame declared (declared_linkFields api) declared_linkEnums
  have hmethods : ((api.linkFields.andThen fun api => ⟨api.linkEnums, none⟩).andThen
      linkMethods).state.declared = api.declared :=
    Outcome.andThen_frame declared henums declared_linkMethods
  unfold crossReference
  simp only [Outcome.andThen_defect_eq_none_iff, linkFields_defect_eq_none_iff,
    linkMethods_defect_eq_none_iff, linkServices_defect_eq_none_iff, and_true]
  rw [← methodsResolve_declared, henums, methodsResolve_declared, ← servicesResolve_declared,
    hmethods, servicesResolve_declared]
  constructor
  · rintro ⟨⟨hmessages, hmethods⟩, hservices⟩
    exact ⟨hmessages, hmethods, hservices⟩
  · rintro ⟨hmessages, hmethods, hservices⟩
    exact ⟨⟨hmessages, hmethods⟩, hservices⟩

end Api

end ApiModel
