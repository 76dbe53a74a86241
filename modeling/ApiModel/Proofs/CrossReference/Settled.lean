import ApiModel.Proofs.CrossReference.Pass

/-!
# Settled models

A model is settled if every pass of cross-referencing is idle on it.  The passes write nothing that they
read, and an assignment that comes twice is made good by the last one.

Principal results:

* `crossReference_repeats` — **a second run ends as the first one did**, with the same state and the same
  defect or none, wherever the first one stopped;
* `settled_of_crossReference` — behind a run without defects the model is settled.
-/

namespace ApiModel

open Outcome

/-! ## Edits of what is linked -/

/-- The edit leaves linked what is linked. -/
structure Edit.SparesLinks (e : Edit) : Prop extends e.SparesServices where
  message : ∀ r id m, Idle (Registry.linkMessage r) m →
    Idle (Registry.linkMessage r) (e.message id m)
  enumeration : ∀ id x, x.linkValues = x →
    (e.enumeration id x).linkValues = e.enumeration id x
  method : ∀ r id m, Idle (Registry.linkMethod r) m → Idle (Registry.linkMethod r) (e.method id m)

namespace Api

variable {api : Api} {e : Edit}

theorem linkFields_idle_edit (h : e.SparesLinks) (hidle : Idle linkFields api) :
    Idle linkFields (api.edit e) := by
  have hlink : (api.edit e).registry.linkMessage = api.registry.linkMessage :=
    linkMessage_congr (IdMap.contains_map _ _) (IdMap.contains_map _ _)
  rw [linkFields_idle_iff] at hidle ⊢
  rw [hlink]
  exact IdMap.forall_map.2 fun id m hm => h.message _ id m (hidle id m hm)

theorem enumPass_idle_edit (h : e.SparesLinks) (hidle : Idle enumPass api) :
    Idle enumPass (api.edit e) := by
  rw [enumPass_idle_iff] at hidle ⊢
  exact IdMap.forall_map.2 fun id x hx => h.enumeration id x (hidle id x hx)

/-- Linking a method asks only which messages are registered. -/
theorem linkMethod_congr {r other : Registry}
    (h : ∀ id, other.messages.contains id = r.messages.contains id) :
    other.linkMethod = r.linkMethod := by
  funext m
  unfold Registry.linkMethod
  rw [h, h]

theorem linkMethods_idle_edit (h : e.SparesLinks) (hidle : Idle linkMethods api) :
    Idle linkMethods (api.edit e) := by
  have hlink : (api.edit e).registry.linkMethod = api.registry.linkMethod :=
    linkMethod_congr (IdMap.contains_map _ _)
  rw [linkMethods_idle_iff] at hidle ⊢
  rw [hlink]
  exact IdMap.forall_map.2 fun id m hm => h.method _ id m (hidle id m hm)

theorem linkServices_idle_edit (h : e.SparesServices) (hidle : Idle linkServices api) :
    Idle linkServices (api.edit e) := by
  unfold Idle at hidle ⊢
  rw [linkServices_edit h, hidle]
  rfl

/-! ## Samples and traits -/

/-- Filling in samples and traits as a pass, which meets no defect. -/
def enrichPass (api : Api) : Outcome Api Defect := ⟨api.enriched, none⟩

theorem latestTraits_latestTraits (found : List (String × Traits)) (id : String) (old : Traits) :
    latestTraits found id (latestTraits found id old) = latestTraits found id old := by
  refine foldl_foldl ?_ ?_ old found
  · intro old t
    split <;> rfl
  · intro old t u
    by_cases ht : id = t.1
    · by_cases hu : id = u.1
      · left
        simp [hu]
      · right
        simp [hu]
    · right
      simp [ht]

theorem message_withSamples_withSamples (m : Message) :
    m.withSamples.withSamples = m.withSamples := by
  unfold Message.withSamples
  simp only [List.map_map]
  rfl

theorem enrichPass_repeats : Repeats enrichPass := by
  intro api
  have hfound : (api.edit api.enriching).foundTraits = api.foundTraits :=
    foundTraits_edit (keepsShapes_enriching api) api
  have hsame : (api.edit api.enriching).enriching = api.enriching := by
    unfold enriching at hfound ⊢
    rw [hfound]
  have hmethod : ∀ id (m : Method), api.enriching.method id (api.enriching.method id m) =
      api.enriching.method id m := by
    intro id m
    unfold enriching
    simp only [latestTraits_latestTraits]
  have hmessage : ∀ id (m : Message), api.enriching.message id (api.enriching.message id m) =
      api.enriching.message id m := fun _ m => message_withSamples_withSamples m
  have henum : ∀ id x, api.enriching.enumeration id (api.enriching.enumeration id x) =
      api.enriching.enumeration id x := fun _ _ => rfl
  show (⟨api.enriched.enriched, none⟩ : Outcome Api Defect) = ⟨api.enriched, none⟩
  rw [enriched_eq_edit api, enriched_eq_edit, hsame]
  unfold edit
  simp only [IdMap.map_map_keyed, hmethod, hmessage, henum]
  rfl

/-- Samples and traits are apart from links. -/
theorem sparesLinks_enriching (api : Api) : api.enriching.SparesLinks where
  methods _ _ := rfl
  model _ _ _ := rfl
  join _ _ _ _ _ := by
    unfold Method.joinService
    simp only [edit, IdMap.contains_map]
    rfl
  message r _ m h := by
    have hmembers : m.withSamples.groupMembers = m.groupMembers := by
      simp [Message.withSamples, Message.groupMembers, List.flatMap_map]
    have hpasses : r.fieldPasses m.withSamples = r.fieldPasses m := by
      unfold Registry.fieldPasses
      rw [hmembers]
      rfl
    rw [linkMessage_idle_iff] at h ⊢
    show ∀ f ∈ r.fieldPasses m.withSamples, Idle f m.fields
    rwa [hpasses]
  enumeration _ x h := by
    have hvalues := congrArg Enumeration.values h
    show { x.withSamples with values := x.linkValues.values } = x.withSamples
    rw [hvalues]
    rfl
  method _ id _ := linkMethod_idle_of_commutes (api.enriching.method id) rfl rfl rfl

/-! ## The whole pass -/

/-- The passes of cross-referencing, in their order. -/
def passes : List (Api → Outcome Api Defect) :=
  [linkFields, enumPass, linkMethods, linkServices, enrichPass]

theorem crossReference_eq_chain (api : Api) : api.crossReference = chain passes api := by
  unfold crossReference passes
  simp only [chain, andThen_ok, andThen_assoc]
  rfl

theorem passes_repeat : ∀ f ∈ passes, Repeats f := by
  simp only [passes, List.forall_mem_cons, List.not_mem_nil, false_implies, implies_true, and_true]
  exact ⟨linkFields_repeats, enumPass_repeats, linkMethods_repeats, linkServices_repeats,
    enrichPass_repeats⟩

theorem keeps_enrichPass {f : Api → Outcome Api Defect}
    (h : ∀ api, Idle f api → Idle f (api.edit api.enriching)) : Keeps enrichPass f := by
  intro api hidle
  show Idle f api.enriched
  rw [enriched_eq_edit]
  exact h api hidle

/-- Joining methods to services leaves them linked to their types. -/
theorem linkServices_keeps_linkMethods : Keeps linkServices linkMethods := by
  intro api hidle
  rw [linkMethods_idle_iff] at hidle ⊢
  have hstate := congrArg Outcome.state (linkServices_eq api)
  have hmethods : ∀ id m, api.linkServices.state.method? id = some m →
      Idle api.registry.linkMethod m := by
    rw [hstate]
    refine fold_inv (fun methods : IdMap Method => ∀ id m, methods.get? id = some m →
      Idle api.registry.linkMethod m) hidle ?_
    intro methods hall p _ id m hm
    rw [joinListed, linkListed_state, IdMap.get?_modify] at hm
    split at hm
    · obtain ⟨n, hn, rfl⟩ := Option.map_eq_some_iff.1 hm
      exact linkMethod_idle_of_commutes (Method.joinService api p.1) rfl rfl rfl (hall id n hn)
    · exact hall id m hm
  have hlink : api.linkServices.state.registry.linkMethod = api.registry.linkMethod := rfl
  rwa [hlink]

theorem enumPass_keeps_linkFields : Keeps enumPass linkFields := by
  intro api hidle
  rw [linkFields_idle_iff] at hidle ⊢
  have hlink : (enumPass api).state.registry.linkMessage = api.registry.linkMessage :=
    linkMessage_congr (fun _ => rfl) (IdMap.contains_map _ _)
  rwa [hlink]

/-- The passes over methods and services do not come near messages and enumerations. -/
theorem keeps_linkFields {g : Api → Outcome Api Defect}
    (h : ∀ api, ∃ services methods, (g api).state =
      { api with registry.services := services, registry.methods := methods }) :
    Keeps g linkFields ∧ Keeps g enumPass := by
  constructor
  · intro api hidle
    obtain ⟨services, methods, hstate⟩ := h api
    rw [hstate]
    rw [linkFields_idle_iff] at hidle ⊢
    exact hidle
  · intro api hidle
    obtain ⟨services, methods, hstate⟩ := h api
    rw [hstate]
    rw [enumPass_idle_iff] at hidle ⊢
    exact hidle

theorem passes_keep : passes.Pairwise fun f g => Keeps g f := by
  obtain ⟨hmethodsFields, hmethodsEnums⟩ := keeps_linkFields (g := linkMethods)
    fun _ => ⟨_, _, rfl⟩
  obtain ⟨hservicesFields, hservicesEnums⟩ := keeps_linkFields (g := linkServices)
    fun _ => ⟨_, _, rfl⟩
  have hspares := sparesLinks_enriching
  simp only [passes, List.pairwise_cons, List.forall_mem_cons, List.not_mem_nil, false_implies,
    implies_true, List.Pairwise.nil, and_true]
  refine ⟨⟨enumPass_keeps_linkFields, hmethodsFields, hservicesFields, ?_⟩,
    ⟨hmethodsEnums, hservicesEnums, ?_⟩, ⟨linkServices_keeps_linkMethods, ?_⟩, ?_⟩
  · exact keeps_enrichPass fun api => linkFields_idle_edit (hspares api)
  · exact keeps_enrichPass fun api => enumPass_idle_edit (hspares api)
  · exact keeps_enrichPass fun api => linkMethods_idle_edit (hspares api)
  · exact keeps_enrichPass fun api => linkServices_idle_edit (hspares api).toSparesServices

/-- Every pass of cross-referencing is idle. -/
def Settled (api : Api) : Prop := ∀ f ∈ passes, Idle f api

/-- A model is settled if and only if cross-referencing is idle on it. -/
theorem crossReference_eq_self_iff : api.crossReference = ⟨api, none⟩ ↔ api.Settled := by
  rw [crossReference_eq_chain]
  exact chain_idle_iff passes_repeat passes_keep

/-- Behind a run without defects the model is settled. -/
theorem settled_of_crossReference (h : api.crossReference.defect = none) :
    api.crossReference.state.Settled := by
  rw [crossReference_eq_chain] at h ⊢
  exact idle_of_chain passes_repeat passes_keep h

/-- **A second run of cross-referencing ends as the first one did**: it leaves the state as it is and
meets the same defect or none. -/
theorem crossReference_repeats (api : Api) :
    api.crossReference.state.crossReference = api.crossReference := by
  rw [crossReference_eq_chain, crossReference_eq_chain]
  exact chain_repeats passes_repeat passes_keep api

end Api

end ApiModel