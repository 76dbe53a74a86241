import ApiModel.Proofs.CrossReference.Message
import ApiModel.Proofs.Edit

/-!
# The passes that link

Linking messages, enumerations, methods and services, each as a pass over the whole model.

Principal results:

* `linkFields_repeats`, `enumPass_repeats`, `linkMethods_repeats`, `linkServices_repeats` — each pass
  repeats itself;
* `linkFields_idle_iff`, `enumPass_idle_iff`, `linkMethods_idle_iff` — a pass is idle if and only if it
  is so on every element;
* `linkServices_eq` — linking services is a fold over the methods that they list beside a sweep.
-/

namespace ApiModel

open Outcome

/-- The method with its types and its operation linked. -/
def Method.linked (m : Method) : Method :=
  { m with
    links.inputType := some m.inputTypeId
    links.outputType := some m.outputTypeId
    operation := m.operation.map fun info => { info with methodId := some m.id } }

namespace Api

/-! ## Passes over messages, enumerations and methods -/

variable {api : Api}

theorem contains_sweep {α ε : Type} (m : IdMap α) (step : α → Outcome α ε) (id : String) :
    (m.sweep step).state.contains id = m.contains id :=
  contains_of_keys_eq (m := (m.sweep step).state) (IdMap.keys_sweep_entries step m.entries) id

theorem linkFields_repeats : Repeats linkFields := by
  intro api
  have hstep : ({ api.registry with
      messages := (api.registry.messages.sweep api.registry.linkMessage).state } :
        Registry).linkMessage = api.registry.linkMessage :=
    linkMessage_congr (contains_sweep _ _) fun _ => rfl
  have hsweep := IdMap.sweep_repeats (linkMessage_repeats api.registry) api.registry.messages
  unfold linkFields
  simp only [map_state, hstep]
  exact congrArg (Outcome.map _) hsweep

theorem linkFields_idle_iff :
    Idle linkFields api ↔ ∀ id m, api.message? id = some m → Idle api.registry.linkMessage m := by
  have hsweep : Idle linkFields api ↔
      api.registry.messages.sweep api.registry.linkMessage = ⟨api.registry.messages, none⟩ :=
    map_eq_iff (fun api => api.registry.messages) fun _ => rfl
  rw [hsweep, IdMap.sweep_idle_iff]
  rfl

/-- Linking enumerations as a pass, which meets no defect. -/
def enumPass (api : Api) : Outcome Api Defect := ⟨api.linkEnums, none⟩

theorem enumPass_idle_iff :
    Idle enumPass api ↔ ∀ id e, api.enum? id = some e → e.linkValues = e := by
  have hmap : Idle enumPass api ↔
      (api.registry.enums.map fun _ e => e.linkValues) = api.registry.enums := by
    unfold Idle enumPass linkEnums
    constructor
    · intro h
      exact congrArg (fun o => o.state.registry.enums) h
    · intro h
      rw [h]
  rw [hmap, IdMap.map_eq_self_iff]
  rfl

theorem enumPass_repeats : Repeats enumPass := by
  intro api
  have hvalues : ∀ e : Enumeration, e.linkValues.linkValues = e.linkValues := by
    intro e
    simp [Enumeration.linkValues, Function.comp_def]
  unfold enumPass linkEnums
  simp only [IdMap.map_map, hvalues]

theorem linkMethod_of_resolves {r : Registry} {m : Method} (h : m.Resolves r) :
    r.linkMethod m = ⟨m.linked, none⟩ := by
  unfold Registry.linkMethod
  rw [h.input, h.output]
  rfl

/-- A method that does not resolve is not touched. -/
theorem linkMethod_of_not_resolves {r : Registry} {m : Method} (h : ¬ m.Resolves r) :
    ∃ d, r.linkMethod m = ⟨m, some d⟩ := by
  unfold Registry.linkMethod
  split
  · exact ⟨_, rfl⟩
  · rename_i hinput
    split
    · exact ⟨_, rfl⟩
    · rename_i houtput
      exact absurd ⟨by simpa using hinput, by simpa using houtput⟩ h

theorem linkMethod_idle_iff {r : Registry} {m : Method} :
    Idle r.linkMethod m ↔ m.Resolves r ∧ m.linked = m := by
  unfold Idle
  by_cases h : m.Resolves r
  · rw [linkMethod_of_resolves h]
    simp [h]
  · obtain ⟨d, hd⟩ := linkMethod_of_not_resolves h
    simp [h, hd]

/-- A change of a linked method apart from its types and what is linked. -/
theorem linkMethod_idle_of_commutes {r : Registry} {m : Method} (f : Method → Method)
    (hinput : (f m).inputTypeId = m.inputTypeId) (houtput : (f m).outputTypeId = m.outputTypeId)
    (hlinked : (f m).linked = f m.linked) (h : Idle r.linkMethod m) : Idle r.linkMethod (f m) := by
  obtain ⟨hresolves, hself⟩ := linkMethod_idle_iff.1 h
  refine linkMethod_idle_iff.2 ⟨⟨?_, ?_⟩, ?_⟩
  · rw [hinput]
    exact hresolves.input
  · rw [houtput]
    exact hresolves.output
  · rw [hlinked, hself]

theorem linked_linked (m : Method) : m.linked.linked = m.linked := by
  unfold Method.linked
  simp only [Option.map_map]
  rfl

theorem linkMethod_repeats (r : Registry) : Repeats r.linkMethod := by
  intro m
  by_cases h : m.Resolves r
  · have hlinked : m.linked.Resolves r := ⟨h.input, h.output⟩
    rw [linkMethod_of_resolves h]
    show r.linkMethod m.linked = ⟨m.linked, none⟩
    rw [linkMethod_of_resolves hlinked, linked_linked]
  · obtain ⟨d, hd⟩ := linkMethod_of_not_resolves h
    rw [hd]
    exact hd

theorem linkMethods_repeats : Repeats linkMethods := by
  intro api
  have hsweep := IdMap.sweep_repeats (linkMethod_repeats api.registry) api.registry.methods
  unfold linkMethods
  simp only [map_state]
  exact congrArg (Outcome.map _) hsweep

theorem linkMethods_idle_iff :
    Idle linkMethods api ↔ ∀ id m, api.method? id = some m → Idle api.registry.linkMethod m := by
  have hsweep : Idle linkMethods api ↔
      api.registry.methods.sweep api.registry.linkMethod = ⟨api.registry.methods, none⟩ :=
    map_eq_iff (fun api => api.registry.methods) fun _ => rfl
  rw [hsweep, IdMap.sweep_idle_iff]
  rfl

/-! ## The pass over services -/

end Api

/-- The methods that a service lists, each with the service as it is declared. -/
def Service.listings (s : Service) : List (Service × String) := s.methods.map (s.bare, ·)

namespace Api

/-- The methods that the services list. -/
def listings (api : Api) : List (Service × String) :=
  api.registry.services.values.flatMap Service.listings

/-- Links a listed method to its service. -/
def joinListed (api : Api) (methods : IdMap Method) (p : Service × String) :
    Outcome (IdMap Method) Defect :=
  api.linkListed p.1 methods p.2

/-- Names the model on a service, whose methods may have a defect. -/
def nameService (api : Api) (s : Service) : Outcome Service Defect :=
  ⟨{ s with model := some api.name }, (fold api.joinListed api.registry.methods s.listings).defect⟩

/-- Whichever service lists a method last has it. -/
theorem joinListed_overwrites (api : Api) : Overwrites api.joinListed := by
  have hover : ∀ s t, Method.joinService api t ∘ Method.joinService api s =
      Method.joinService api t := fun _ _ => rfl
  have hcontains : ∀ methods p id, (api.joinListed methods p).state.contains id =
      methods.contains id := by
    intro methods p id
    exact contains_of_keys_eq (keys_linkListed api p.1 methods p.2) id
  have hstate : ∀ methods p, (api.joinListed methods p).state =
      methods.modify p.2 (Method.joinService api p.1) := by
    intro methods p
    exact linkListed_state api p.1 methods p.2
  refine ⟨?_, ?_, ?_⟩
  · intro methods p q
    show (api.linkListed p.1 _ p.2).defect = (api.linkListed p.1 methods p.2).defect
    rw [linkListed_defect, linkListed_defect, hcontains]
  · intro methods p
    rw [hstate, hstate, IdMap.modify_modify_eq, hover]
  · intro methods p q
    rw [hstate, hstate, hstate, hstate]
    by_cases hsame : p.2 = q.2
    · left
      rw [hsame, IdMap.modify_modify_eq, hover]
    · right
      exact IdMap.modify_modify_ne _ hsame _ _

/-- Linking services is a fold over the listed methods beside a sweep over the services. -/
theorem linkServices_eq (api : Api) :
    api.linkServices =
      ⟨{ api with
          registry.methods := (fold api.joinListed api.registry.methods api.listings).state
          registry.services := (api.registry.services.sweep api.nameService).state },
        (fold api.joinListed api.registry.methods api.listings).defect⟩ := by
  have hwrite : ∀ methods (s : Service), fold api.joinListed methods s.listings =
      fold (api.linkListed s) methods s.methods := by
    intro methods s
    unfold Service.listings
    rw [fold_map]
    rfl
  have hstep : ∀ methods (s : Service), api.linkService methods s =
      (fold api.joinListed methods s.listings).map fun methods =>
        (methods, { s with model := some api.name }) := by
    intro methods s
    unfold linkService
    rw [hwrite]
  have steady : ∀ methods (s t : Service),
      (fold api.joinListed (fold api.joinListed methods t.listings).state s.listings).defect =
        (fold api.joinListed methods s.listings).defect := by
    intro methods s t
    have halike := (joinListed_overwrites api).alike_fold methods t.listings
    exact (joinListed_overwrites api).fold_defect halike s.listings
  have hthread := IdMap.thread_eq (m := api.registry.services) hstep steady api.registry.methods
  rw [fold_flatMap] at hthread
  unfold linkServices
  rw [hthread]
  rfl

theorem map_bare_nameService (api : Api) (s : Service) : (api.nameService s).state.bare = s.bare :=
  rfl

/-- What is listed is no matter of the names on services. -/
theorem listings_congr {api other : Api}
    (h : (other.registry.services.map fun _ => Service.bare) =
      api.registry.services.map fun _ => Service.bare) : other.listings = api.listings := by
  have hbare : ∀ api : Api, api.listings =
      (api.registry.services.map fun _ => Service.bare).values.flatMap Service.listings := by
    intro api
    rw [IdMap.values_map, List.flatMap_map]
    rfl
  rw [hbare, hbare, h]

theorem nameService_repeats (api : Api) : Repeats api.nameService := fun _ => rfl

theorem linkServices_repeats : Repeats linkServices := by
  intro api
  have hsecond := linkServices_eq api.linkServices.state
  have hstate := congrArg Outcome.state (linkServices_eq api)
  -- in the state behind the first run the same methods are listed, and joined in the same way
  have hlistings : api.linkServices.state.listings = api.listings := by
    rw [hstate]
    exact listings_congr (IdMap.map_sweep_state Service.bare (map_bare_nameService api))
  have hjoin : api.linkServices.state.joinListed = api.joinListed := by
    funext methods p
    have hjoined : Method.joinService api.linkServices.state p.1 =
        Method.joinService api p.1 := by
      funext m
      unfold Method.joinService
      rw [hstate]
      simp only [contains_sweep]
    unfold joinListed linkListed
    rw [hjoined]
  have hmethods := fold_repeats (joinListed_overwrites api) api.listings api.registry.methods
  have hname : api.linkServices.state.nameService = api.nameService := by
    funext s
    have halike := (joinListed_overwrites api).alike_fold api.registry.methods api.listings
    have hdefect := (joinListed_overwrites api).fold_defect halike s.listings
    unfold nameService
    rw [hjoin, hstate]
    exact Outcome.ext rfl hdefect
  have hservices := IdMap.sweep_repeats (nameService_repeats api) api.registry.services
  rw [hlistings, hjoin, hname] at hsecond
  rw [hsecond, hstate, linkServices_eq]
  simp only at hmethods hservices ⊢
  rw [hmethods, hservices]

end Api

end ApiModel
