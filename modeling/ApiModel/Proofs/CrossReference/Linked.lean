import ApiModel.Proofs.CrossReference.Settled

/-!
# Linked models

`Api.Linked` says what every link of a cross-referenced model is.  It is read off a settled model: a
pass that is idle has written already what it would write.

Principal result: `crossReference_spec` — **cross-referencing meets no defect if and only if the model is
resolved, and behind it every link is in place**.
-/

namespace ApiModel

open Outcome

/-! ## The last of several assignments -/

namespace Outcome

variable {σ ε α : Type}

/-- What the step on one item brings about and no later step undoes holds behind the fold. -/
theorem fold_last (step : σ → α → Outcome σ ε) (Q : σ → Prop) {s : σ} {before after : List α}
    {a : α} (h : (fold step s (before ++ a :: after)).defect = none)
    (hset : ∀ s, Q (step s a).state) (hkeep : ∀ s, Q s → ∀ b ∈ after, Q (step s b).state) :
    Q (fold step s (before ++ a :: after)).state := by
  rw [fold_append] at h ⊢
  obtain ⟨hbefore, hrest⟩ := andThen_defect_eq_none_iff.1 h
  rw [andThen_of_ok hbefore]
  rw [fold_cons] at hrest ⊢
  cases hstep : (step (fold step s before).state a).defect with
  | none => exact fold_inv Q (hset _) hkeep
  | some e =>
    rw [hstep] at hrest
    cases hrest

end Outcome

/-! ## Links -/

/-- The last one-of that lists a field. -/
def Message.lastOneOf? (m : Message) (fieldId : String) : Option OneOf :=
  m.oneOfs.reverse.find? (·.fields.contains fieldId)

/-- The fields of the message are linked. -/
structure Message.Linked (m : Message) : Prop where
  parents : ∀ f ∈ m.fields, f.links.parent = some m.id
  messageTypes : ∀ f ∈ m.fields, f.kind = .message → f.links.messageType = some f.typeId
  enumTypes : ∀ f ∈ m.fields, f.kind = .enumeration → f.links.enumType = some f.typeId
  groups : (m.fields.map (·.id)).Nodup →
    ∀ f ∈ m.fields, ∀ o, m.lastOneOf? f.id = some o → f.links.group = some o.id

/-- The method is linked to its types and its operation to the method. -/
structure Method.Linked (m : Method) : Prop where
  input : m.links.inputType = some m.inputTypeId
  output : m.links.outputType = some m.outputTypeId
  operation : ∀ info, m.operation = some info → info.methodId = some m.id

/-- The method is linked to a service of the model that lists it. -/
structure Method.LinkedTo (api : Api) (s : Service) (m : Method) : Prop where
  model : m.links.model = some api.name
  service : m.links.service = some s.id
  source : m.links.sourceService =
    some (if api.registry.services.contains m.sourceServiceId then m.sourceServiceId else s.id)

namespace Api

/-- No other registered service lists the method. -/
def OnlyListedBy (api : Api) (serviceId methodId : String) : Prop :=
  ∀ id s, api.service? id = some s → methodId ∈ s.methods → id = serviceId

/-- Every link is in place. -/
structure Linked (api : Api) : Prop where
  messages : ∀ id m, api.message? id = some m → m.Linked
  values : ∀ id e, api.enum? id = some e → ∀ v ∈ e.values, v.parent = some e.id
  methods : ∀ id m, api.method? id = some m → m.Linked
  services : ∀ id s, api.service? id = some s → s.model = some api.name
  listed : ∀ id s, api.service? id = some s → ∀ methodId ∈ s.methods, api.OnlyListedBy id methodId →
    ∃ m, api.method? methodId = some m ∧ m.LinkedTo api s

variable {api : Api}

/-! ## Messages -/

theorem find?_modify_fieldPlace (fields : List Field) (id other : String) {f : Field → Field}
    (hf : ∀ x, (f x).id = x.id) :
    (fields.modify (fieldPlace fields id) f).find? (·.id == other) =
      if other = id then (fields.find? (·.id == other)).map f
      else fields.find? (·.id == other) := by
  induction fields with
  | nil => simp
  | cons x rest ih =>
    by_cases hx : x.id = id
    · have hplace : fieldPlace (x :: rest) id = 0 := by
        simp [fieldPlace, List.findIdx_cons, hx]
      rw [hplace, List.modify_zero_cons, List.find?_cons, List.find?_cons, hf]
      by_cases hother : other = id
      · simp [hother, hx]
      · have hne : (x.id == other) = false := by
          simpa [hx] using Ne.symm hother
        simp [hne, hother]
    · have hplace : fieldPlace (x :: rest) id = fieldPlace rest id + 1 := by
        simp [fieldPlace, List.findIdx_cons, beq_eq_false_iff_ne.2 hx]
      rw [hplace, List.modify_succ_cons, List.find?_cons, List.find?_cons, ih]
      cases hother : x.id == other with
      | false => rfl
      | true =>
        have hne : other ≠ id := by
          rw [beq_iff_eq] at hother
          rw [← hother]
          exact hx
        simp [hne]

theorem find?_joinGroup (messageId : String) (fields : List Field) (member : String × String)
    (id : String) :
    (joinGroup messageId fields member).state.find? (·.id == id) =
      if id = member.2 then (fields.find? (·.id == id)).map (Field.inGroup messageId member.1)
      else fields.find? (·.id == id) := by
  rw [joinGroup_state]
  exact find?_modify_fieldPlace fields member.2 id fun _ => rfl

/-- Behind the place of a field in the last one-of that lists it, no other one-of lists it. -/
theorem groupMembers_of_lastOneOf? {m : Message} {id : String} {o : OneOf}
    (ho : m.lastOneOf? id = some o) :
    ∃ before after, m.groupMembers = before ++ (o.id, id) :: after ∧
      ∀ member ∈ after, id = member.2 → member.1 = o.id := by
  obtain ⟨hmem, later, earlier, hsplit, hlater⟩ := List.find?_eq_some_iff_append.1 ho
  obtain ⟨front, back, hfields⟩ := List.append_of_mem (by simpa using hmem : id ∈ o.fields)
  have honeOfs : m.oneOfs = earlier.reverse ++ o :: later.reverse := by
    simpa using congrArg List.reverse hsplit
  refine ⟨earlier.reverse.flatMap (fun o => o.fields.map (o.id, ·)) ++ front.map (o.id, ·),
    back.map (o.id, ·) ++ later.reverse.flatMap fun o => o.fields.map (o.id, ·), ?_, ?_⟩
  · unfold Message.groupMembers
    rw [honeOfs, List.flatMap_append, List.flatMap_cons, hfields]
    simp
  · intro member hmember hsame
    rcases List.mem_append.1 hmember with hback | hlist
    · obtain ⟨listed, -, rfl⟩ := List.mem_map.1 hback
      rfl
    · obtain ⟨p, hp, hlist⟩ := List.mem_flatMap.1 hlist
      obtain ⟨listed, hlisted, rfl⟩ := List.mem_map.1 hlist
      have hnot := hlater p (List.mem_reverse.1 hp)
      rw [hsame] at hnot
      simp [hlisted] at hnot

/-- Behind all the groups a field is in the last one that lists it. -/
theorem group_of_idle {messageId : String} {m : Message} {f : Field} {o : OneOf}
    (h : Idle (fun fields => fold (joinGroup messageId) fields m.groupMembers) m.fields)
    (hf : m.fields.find? (·.id == f.id) = some f) (ho : m.lastOneOf? f.id = some o) :
    f.links.group = some o.id := by
  obtain ⟨before, after, hmembers, hafter⟩ := groupMembers_of_lastOneOf? ho
  -- the step on the last one-of sets the group, and those behind it set no other one
  have hlast := fold_last (s := m.fields) (joinGroup messageId)
    (fun fields => ∀ g, fields.find? (·.id == f.id) = some g → g.links.group = some o.id)
    (hmembers ▸ h.defect_eq) ?_ ?_
  · rw [← hmembers] at hlast
    have hstate : (fold (joinGroup messageId) m.fields m.groupMembers).state = m.fields :=
      h.state_eq
    rw [hstate] at hlast
    exact hlast f hf
  · intro fields g hg
    rw [find?_joinGroup, if_pos rfl] at hg
    obtain ⟨x, -, rfl⟩ := Option.map_eq_some_iff.1 hg
    rfl
  · intro fields hfields member hmember g hg
    rw [find?_joinGroup] at hg
    split at hg
    · rename_i hsame
      obtain ⟨x, -, rfl⟩ := Option.map_eq_some_iff.1 hg
      rw [← hafter member hmember hsame]
      rfl
    · exact hfields g hg

theorem linked_of_linkMessage {r : Registry} {m : Message} (h : Idle r.linkMessage m) :
    m.Linked := by
  have hpasses := linkMessage_idle_iff.1 h
  have hfields : ∀ f ∈ m.fields, Idle (r.linkField m.id) f :=
    sweep_idle_iff.1 (hpasses _ (List.mem_cons_self ..))
  have hgroups := hpasses _ (List.mem_cons_of_mem _ (List.mem_cons_self ..))
  have hlinks : ∀ f ∈ m.fields, r.linksOf m.id f = f.links := by
    intro f hf
    have hstate := (hfields f hf).state_eq
    rw [linkField_state] at hstate
    exact congrArg Field.links hstate
  refine ⟨?_, ?_, ?_, ?_⟩
  · intro f hf
    rw [← hlinks f hf]
    rfl
  · intro f hf hkind
    have hreg := (linkField_defect_eq_none_iff.1 (hfields f hf).defect_eq).1 hkind
    rw [← hlinks f hf]
    exact if_pos ⟨hkind, hreg⟩
  · intro f hf hkind
    have hreg := (linkField_defect_eq_none_iff.1 (hfields f hf).defect_eq).2 hkind
    rw [← hlinks f hf]
    exact if_pos ⟨hkind, hreg⟩
  · intro hnodup f hf o ho
    refine group_of_idle hgroups ?_ ho
    refine (List.find?_eq_some_iff_append).2 ⟨by simp, ?_⟩
    obtain ⟨front, back, hsplit⟩ := List.append_of_mem hf
    refine ⟨front, back, hsplit, fun g hg => ?_⟩
    rw [hsplit, List.map_append, List.map_cons] at hnodup
    have hne := (List.nodup_append.1 hnodup).2.2 g.id (List.mem_map_of_mem hg) f.id (by simp)
    simpa using hne

/-! ## Methods and services -/

theorem linked_of_linkMethod {r : Registry} {m : Method} (h : Idle r.linkMethod m) : m.Linked := by
  obtain ⟨-, hlinked⟩ := linkMethod_idle_iff.1 h
  refine ⟨?_, ?_, ?_⟩
  · exact (congrArg (fun m : Method => m.links.inputType) hlinked).symm
  · exact (congrArg (fun m : Method => m.links.outputType) hlinked).symm
  · intro info hinfo
    have hoperation := congrArg Method.operation hlinked
    simp only [Method.linked, hinfo, Option.map_some, Option.some.injEq] at hoperation
    exact (congrArg OperationInfo.methodId hoperation).symm

/-- Where linking services is idle, so are its fold and its sweep. -/
theorem listings_of_linkServices (h : Idle linkServices api) :
    fold api.joinListed api.registry.methods api.listings = ⟨api.registry.methods, none⟩ ∧
      ∀ id s, api.service? id = some s → Idle api.nameService s := by
  have hrun := linkServices_eq api
  rw [h] at hrun
  have hdefect := congrArg Outcome.defect hrun
  have hstate := congrArg Outcome.state hrun
  simp only at hdefect hstate
  have hmethods : api.registry.methods =
      (fold api.joinListed api.registry.methods api.listings).state :=
    congrArg (fun api => api.registry.methods) hstate
  have hservices : api.registry.services = (api.registry.services.sweep api.nameService).state :=
    congrArg (fun api => api.registry.services) hstate
  have hresolve : api.ServicesResolve := linkServices_defect_eq_none_iff.1 h.defect_eq
  have hnone : (api.registry.services.sweep api.nameService).defect = none := by
    rw [IdMap.sweep_defect_eq_none_iff]
    intro id s hs
    refine ((fold_spec (fun methods : IdMap Method => methods.keys = api.registry.methods.keys)
      (fun p : Service × String => api.registry.methods.contains p.2 = true) rfl ?_).2).2 ?_
    · intro methods hkeys p _
      refine ⟨(keys_linkListed api p.1 methods p.2).trans hkeys, ?_⟩
      rw [← contains_of_keys_eq hkeys]
      unfold joinListed
      rw [linkListed_defect]
      split <;> rename_i hreg <;> simp [hreg]
    · intro p hp
      obtain ⟨listed, hlisted, rfl⟩ := List.mem_map.1 hp
      exact hresolve id s hs listed hlisted
  refine ⟨Outcome.ext hmethods.symm hdefect.symm, IdMap.sweep_idle_iff.1 ?_⟩
  exact Outcome.ext hservices.symm hnone

theorem linkedTo_joinService (s : Service) (m : Method) :
    (m.joinService api s).LinkedTo api s := ⟨rfl, rfl, rfl⟩

theorem get?_joinListed (methods : IdMap Method) (p : Service × String) (id : String) :
    (api.joinListed methods p).state.get? id =
      if id = p.2 then (methods.get? id).map (Method.joinService api p.1) else methods.get? id := by
  unfold joinListed
  rw [linkListed_state, IdMap.get?_modify]

theorem mem_listings {id : String} {s : Service} (hs : api.service? id = some s) {methodId : String}
    (hlisted : methodId ∈ s.methods) : (s.bare, methodId) ∈ api.listings :=
  List.mem_flatMap.2 ⟨s, IdMap.mem_values_iff.2 ⟨id, hs⟩, List.mem_map_of_mem hlisted⟩

/-- A method that one service lists has no listing for another one. -/
theorem eq_of_onlyListedBy {id : String} {s : Service} (hs : api.service? id = some s)
    {p : Service × String} (honly : api.OnlyListedBy id p.2) (hp : p ∈ api.listings) :
    p.1 = s.bare := by
  obtain ⟨t, ht, hp⟩ := List.mem_flatMap.1 hp
  obtain ⟨listed, hlisted, rfl⟩ := List.mem_map.1 hp
  obtain ⟨other, ht⟩ := IdMap.mem_values_iff.1 ht
  obtain rfl := honly other t ht hlisted
  obtain rfl : s = t := Option.some.inj (hs.symm.trans ht)
  rfl

/-- A method that one service lists is linked to that service. -/
theorem linkedTo_of_linkServices (h : Idle linkServices api) {id : String} {s : Service}
    (hs : api.service? id = some s) {methodId : String} (hlisted : methodId ∈ s.methods)
    (honly : api.OnlyListedBy id methodId) :
    ∃ m, api.method? methodId = some m ∧ m.LinkedTo api s := by
  obtain ⟨hfold, -⟩ := listings_of_linkServices h
  obtain ⟨before, after, hsplit⟩ := List.append_of_mem (mem_listings hs hlisted)
  -- one listing links the method; the others are of other methods or of the same service
  have hlast := fold_last (s := api.registry.methods) api.joinListed
    (fun methods : IdMap Method => ∀ m, methods.get? methodId = some m → m.LinkedTo api s)
    (hsplit ▸ congrArg Outcome.defect hfold) ?_ ?_
  · rw [← hsplit, hfold] at hlast
    have hreg := linkServices_defect_eq_none_iff.1 h.defect_eq id s hs methodId hlisted
    obtain ⟨m, hm⟩ := Option.isSome_iff_exists.1 hreg
    exact ⟨m, hm, hlast m hm⟩
  · intro methods m hm
    rw [get?_joinListed, if_pos rfl] at hm
    obtain ⟨n, -, rfl⟩ := Option.map_eq_some_iff.1 hm
    exact linkedTo_joinService s n
  · intro methods hmethods p hp m hm
    rw [get?_joinListed] at hm
    split at hm
    · rename_i hid
      obtain ⟨n, -, rfl⟩ := Option.map_eq_some_iff.1 hm
      rw [eq_of_onlyListedBy hs (hid ▸ honly) (by rw [hsplit]; simp [hp])]
      exact linkedTo_joinService s n
    · exact hmethods m hm

/-! ## The whole model -/

/-- A settled model is linked. -/
theorem linked_of_settled (h : api.Settled) : api.Linked := by
  have hfields : Idle linkFields api := h _ (by simp [passes])
  have henums : Idle enumPass api := h _ (by simp [passes])
  have hmethods : Idle linkMethods api := h _ (by simp [passes])
  have hservices : Idle linkServices api := h _ (by simp [passes])
  refine ⟨?_, ?_, ?_, ?_, ?_⟩
  · intro id m hm
    exact linked_of_linkMessage (linkFields_idle_iff.1 hfields id m hm)
  · intro id e he v hv
    have hvalues := congrArg Enumeration.values (enumPass_idle_iff.1 henums id e he)
    rw [← hvalues] at hv
    obtain ⟨w, -, rfl⟩ := List.mem_map.1 hv
    rfl
  · intro id m hm
    exact linked_of_linkMethod (linkMethods_idle_iff.1 hmethods id m hm)
  · intro id s hs
    have hname := ((listings_of_linkServices hservices).2 id s hs).state_eq
    exact (congrArg Service.model hname).symm
  · intro id s hs methodId hlisted honly
    exact linkedTo_of_linkServices hservices hs hlisted honly

theorem name_crossReference (api : Api) : api.crossReference.state.name = api.name := by
  rw [crossReference_eq_chain]
  unfold passes
  simp only [chain]
  refine andThen_frame Api.name rfl fun api => ?_
  refine andThen_frame Api.name rfl fun api => ?_
  refine andThen_frame Api.name rfl fun api => ?_
  refine andThen_frame Api.name rfl fun api => ?_
  exact andThen_frame Api.name rfl fun _ => rfl

/-- **Cross-referencing meets no defect if and only if the model is resolved, and behind it every link is
in place.**  It leaves the name and what is declared as they were. -/
theorem crossReference_spec (api : Api) :
    (api.crossReference.defect = none ↔ api.Resolved) ∧
      (api.crossReference.defect = none →
        api.crossReference.state.name = api.name ∧
        api.crossReference.state.declared = api.declared ∧ api.crossReference.state.Linked) := by
  refine ⟨crossReference_defect_eq_none_iff, fun h => ?_⟩
  exact ⟨name_crossReference api, declared_crossReference api,
    linked_of_settled (settled_of_crossReference h)⟩

/-- A model with a field in two one-ofs and with a service that lists one method. -/
def shop : Api :=
  (({ name := "shop", package := "v1" } : Api).addMessage
    { name := "Order", id := ".v1.Order", package := "v1"
      fields := [{ name := "next", jsonName := "next", id := ".v1.Order.next", kind := .message
                   typeId := ".v1.Order" }]
      oneOfs := [{ name := "first", id := ".v1.Order.first", fields := [".v1.Order.next"] },
        { name := "second", id := ".v1.Order.second", fields := [".v1.Order.next"] }] }).addService
    (.new "Orders" "v1") [.new (.new "Orders" "v1") "Place" ".v1.Order" ".v1.Order"]

theorem crossReference_spec_shop :
    shop.crossReference.defect = none ∧ shop.Resolved ∧ shop.crossReference.state.Linked ∧
      ∃ m ∈ shop.crossReference.state.registry.messages.values,
        m.fields.map (·.links.group) = [some ".v1.Order.second"] := by
  have hdefect : shop.crossReference.defect = none := rfl
  obtain ⟨hresolved, hlinked⟩ := crossReference_spec shop
  refine ⟨hdefect, hresolved.1 hdefect, (hlinked hdefect).2.2, ?_⟩
  exact ⟨_, List.mem_cons_self .., rfl⟩

end Api

end ApiModel
