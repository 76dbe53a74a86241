import ApiModel.Proofs.Pipeline

/-!
# The surface of a model

The surface is what a model offers: its texts, its resources, and its services with their methods, apart
from the types and from what cross-referencing fills in.

Principal results:

* `surface_crossReference`, `surface_labelRecursive` — these analyses leave the surface as it was;
* `surface_applySelection` — the selection goes by the surface;
* `surface_applySelection_skipping` — **skipping a method leaves the surface of the model without it**.
-/

namespace ApiModel

/-! ## Surfaces -/

/-- The service without what cross-referencing fills in. -/
def Service.unlinked (s : Service) : Service := { s with model := none }

/-- The method without what cross-referencing fills in. -/
def Method.unlinked (m : Method) : Method :=
  { m with operation := m.operation.map ({ · with methodId := none }), links := {}, traits := {} }

namespace Api

/-- What a model offers, apart from its types. -/
def surface (api : Api) : Api :=
  { api with
    messages := []
    enums := []
    registry.messages := ∅
    registry.enums := ∅
    registry.services := api.registry.services.map fun _ => Service.unlinked
    registry.methods := api.registry.methods.map fun _ => Method.unlinked }

theorem service?_surface (api : Api) (id : String) :
    api.surface.service? id = (api.service? id).map Service.unlinked :=
  IdMap.get?_map _ _ _

/-- Methods that offer the same in the place of others leave the surface as it was. -/
theorem surface_with_methods {api : Api} {methods : IdMap Method}
    (h : (methods.map fun _ => Method.unlinked) =
      api.registry.methods.map fun _ => Method.unlinked) :
    { api with registry.methods := methods }.surface = api.surface := by
  simp only [surface, h]

/-! ## Cross-referencing -/

theorem unlinked_linkMethod (r : Registry) (m : Method) :
    (r.linkMethod m).state.unlinked = m.unlinked := by
  unfold Registry.linkMethod
  split
  · rfl
  · split
    · rfl
    · simp [Method.unlinked, Function.comp_def]

theorem map_unlinked_linkListed (api : Api) (s : Service) (methods : IdMap Method) (id : String) :
    ((api.linkListed s methods id).state.map fun _ => Method.unlinked) =
      methods.map fun _ => Method.unlinked := by
  unfold linkListed
  split
  · refine IdMap.map_modify Method.unlinked ?_
    intro m
    rfl
  · rfl

theorem surface_linkServices (api : Api) : api.linkServices.state.surface = api.surface := by
  have hmethods : ∀ methods s, ((api.linkService methods s).state.1.map fun _ => Method.unlinked) =
      methods.map fun _ => Method.unlinked := by
    intro methods s
    exact Outcome.fold_frame (IdMap.map · fun _ => Method.unlinked) (map_unlinked_linkListed api s)
      _ _
  have hservice : ∀ methods s, (api.linkService methods s).state.2.unlinked = s.unlinked :=
    fun _ _ => rfl
  obtain ⟨hm, hs⟩ := IdMap.thread_frame (m := api.registry.services)
    (IdMap.map · fun _ => Method.unlinked) Service.unlinked hmethods hservice api.registry.methods
  unfold linkServices
  simp only [Outcome.map_state, surface, hm, hs]

theorem surface_enriched (api : Api) : api.enriched.surface = api.surface := by
  refine surface_with_methods ?_
  refine Outcome.foldl_frame (IdMap.map · fun _ => Method.unlinked) ?_ _ _
  intro methods t
  refine IdMap.map_modify Method.unlinked ?_
  intro m
  rfl

/-- Cross-referencing leaves the surface as it was, wherever it stops. -/
theorem surface_crossReference (api : Api) : api.crossReference.state.surface = api.surface := by
  have hmethods : ∀ api : Api, api.linkMethods.state.surface = api.surface := by
    intro api
    exact surface_with_methods
      (IdMap.map_sweep_state Method.unlinked (unlinked_linkMethod api.registry))
  unfold crossReference
  refine Outcome.andThen_frame surface ?_ surface_enriched
  refine Outcome.andThen_frame surface ?_ surface_linkServices
  refine Outcome.andThen_frame surface ?_ hmethods
  exact Outcome.andThen_frame surface rfl fun _ => rfl

theorem surface_labelRecursive (api : Api) : api.labelRecursive.surface = api.surface := rfl

/-! ## The selection -/

theorem keptServices_surface (api : Api) (s : Selection) :
    api.surface.keptServices s = (api.keptServices s).map fun _ => Service.unlinked :=
  IdMap.filter_map _ _ fun id => !(api.droppedServices s).contains id

theorem droppedMethods_surface (api : Api) (s : Selection) :
    api.surface.droppedMethods s = api.droppedMethods s := by
  have hservices : (api.droppedServices s).filterMap api.surface.service? =
      ((api.droppedServices s).filterMap api.service?).map Service.unlinked := by
    rw [List.map_filterMap]
    exact List.filterMap_congr fun id _ => service?_surface api id
  unfold droppedMethods
  rw [show api.surface.droppedServices s = api.droppedServices s from rfl, hservices,
    keptServices_surface, IdMap.values_map, List.flatMap_map, List.flatMap_map]
  rfl

/-- The selection goes by the surface. -/
theorem surface_applySelection (api : Api) (s : Selection) :
    (api.applySelection s).surface = api.surface.applySelection s := by
  have hrestrict : ∀ service : Service,
      (s.restrict service).unlinked = s.restrict service.unlinked := fun _ => rfl
  unfold applySelection
  simp only [droppedMethods_surface, keptServices_surface]
  simp only [surface, IdMap.map_map,
    IdMap.filter_map _ _ fun id => !(api.droppedMethods s).contains id, hrestrict]
  rfl

end Api

/-! ## Removing and skipping a method -/

/-- The service without a method. -/
def Service.withoutMethod (s : Service) (id : String) : Service :=
  { s with methods := s.methods.filter (· != id) }

/-- The model without a method: it is neither listed nor registered. -/
def Api.withoutMethod (api : Api) (id : String) : Api :=
  { api with
    registry.services := api.registry.services.map fun _ s => s.withoutMethod id
    registry.methods := api.registry.methods.erase id }

/-- The selection with one more ID to skip. -/
def Selection.skipping (s : Selection) (id : String) : Selection :=
  { s with skipped := s.skipped ++ [id] }

/-- The configuration with one more ID to skip. -/
def Config.skipping (c : Config) (id : String) : Config :=
  { c with skippedIds := c.skippedIds ++ [id] }

namespace Selection

variable (s : Selection) {id x : String}

theorem lists_skipping_self (id : String) : (s.skipping id).lists id = false := by
  simp [lists, skipping]

theorem lists_skipping (h : x ≠ id) : (s.skipping id).lists x = s.lists x := by
  simp [lists, skipping, h]

theorem keeps_skipping (h : x ≠ id) : (s.skipping id).keeps x = s.keeps x := by
  unfold keeps
  rw [lists_skipping s h]
  rfl

/-- Among the others as many are included as among all, if an included method is not the only one. -/
theorem keepsMethod_skipping {a : Service} (h : x ≠ id)
    (hincluded : id ∈ a.methods → id ∈ s.included → ∃ k ∈ a.methods, k ≠ id ∧ k ∈ s.included) :
    (s.skipping id).keepsMethod a.methods x = s.keepsMethod (a.withoutMethod id).methods x := by
  have hany : (a.withoutMethod id).methods.any s.included.contains =
      a.methods.any s.included.contains := by
    rw [Bool.eq_iff_iff, List.any_eq_true, List.any_eq_true]
    simp only [Service.withoutMethod, List.mem_filter, bne_iff_ne, List.contains_iff_mem]
    constructor
    · rintro ⟨k, ⟨hk, -⟩, hkin⟩
      exact ⟨k, hk, hkin⟩
    · rintro ⟨k, hk, hkin⟩
      by_cases hkid : k = id
      · subst hkid
        obtain ⟨other, hother, hne, hin⟩ := hincluded hk hkin
        exact ⟨other, ⟨hother, hne⟩, hin⟩
      · exact ⟨k, ⟨hk, hkid⟩, hkin⟩
  unfold keepsMethod
  rw [lists_skipping s h, hany]
  rfl

/-- Skipping a method restricts a service as if it did not list the method. -/
theorem restrict_skipping {a : Service}
    (hincluded : id ∈ a.methods → id ∈ s.included → ∃ k ∈ a.methods, k ≠ id ∧ k ∈ s.included) :
    (s.skipping id).restrict a = s.restrict (a.withoutMethod id) := by
  have hmethods : a.methods.filter ((s.skipping id).keepsMethod a.methods) =
      (a.methods.filter (· != id)).filter (s.keepsMethod (a.withoutMethod id).methods) := by
    rw [List.filter_filter]
    refine List.filter_congr fun x _ => ?_
    by_cases hx : x = id
    · subst hx
      simp [keepsMethod, lists_skipping_self]
    · rw [keepsMethod_skipping s hx hincluded]
      simp [hx]
  unfold restrict
  rw [hmethods]
  rfl

end Selection

namespace Api

/-- Skipping the method takes no other element with it: some service lists the method, no service goes by
its ID, and where it is included in a service that stays, so is another method. -/
structure Detaches (api : Api) (s : Selection) (id : String) : Prop where
  listed : ∃ i a, api.service? i = some a ∧ id ∈ a.methods
  services : id ∉ api.services
  included : ∀ i a, api.service? i = some a → i ∉ api.droppedServices s → id ∈ a.methods →
    id ∈ s.included → ∃ k ∈ a.methods, k ≠ id ∧ k ∈ s.included

variable {api other : Api} {s : Selection} {id : String}

theorem Detaches.of_services (h : api.Detaches s id) (hlisted : other.services = api.services)
    (hservices : other.registry.services = api.registry.services) : other.Detaches s id := by
  have hservice : other.service? = api.service? := by
    unfold service?
    rw [hservices]
  have hdropped : other.droppedServices s = api.droppedServices s := by
    unfold droppedServices
    rw [hlisted]
  refine ⟨?_, ?_, ?_⟩
  · rw [hservice]
    exact h.listed
  · rw [hlisted]
    exact h.services
  · rw [hservice, hdropped]
    exact h.included

theorem detaches_surface : api.surface.Detaches s id ↔ api.Detaches s id := by
  constructor
  · rintro ⟨⟨i, a, ha, hid⟩, hservices, hincluded⟩
    refine ⟨?_, hservices, fun i a ha => hincluded i a.unlinked ?_⟩
    · rw [service?_surface] at ha
      obtain ⟨b, hb, rfl⟩ := Option.map_eq_some_iff.1 ha
      exact ⟨i, b, hb, hid⟩
    · rw [service?_surface, ha]
      rfl
  · rintro ⟨⟨i, a, ha, hid⟩, hservices, hincluded⟩
    refine ⟨⟨i, a.unlinked, by rw [service?_surface, ha]; rfl, hid⟩, hservices, ?_⟩
    intro i a ha
    rw [service?_surface] at ha
    obtain ⟨b, hb, rfl⟩ := Option.map_eq_some_iff.1 ha
    exact hincluded i b hb

theorem service?_withoutMethod (api : Api) (id i : String) :
    (api.withoutMethod id).service? i = (api.service? i).map (·.withoutMethod id) :=
  IdMap.get?_map _ _ _

theorem method?_withoutMethod (api : Api) (id x : String) :
    (api.withoutMethod id).method? x = if x = id then none else api.method? x :=
  IdMap.get?_erase _ _ _

theorem surface_withoutMethod (api : Api) (id : String) :
    (api.withoutMethod id).surface = api.surface.withoutMethod id := by
  unfold surface withoutMethod IdMap.erase
  simp only [IdMap.map_map, IdMap.filter_map _ _ fun k => k != id]
  rfl

theorem droppedServices_skipping (h : id ∉ api.services) :
    api.droppedServices (s.skipping id) = api.droppedServices s := by
  refine List.filter_congr fun x hx => ?_
  have hne : x ≠ id := ne_of_mem_of_not_mem hx h
  rw [Selection.keeps_skipping s hne]

theorem service?_applySelection_skipping (h : api.Detaches s id) (i : String) :
    (api.applySelection (s.skipping id)).service? i =
      ((api.withoutMethod id).applySelection s).service? i := by
  rw [service?_applySelection, service?_applySelection, service?_withoutMethod,
    droppedServices_skipping h.services,
    show (api.withoutMethod id).droppedServices s = api.droppedServices s from rfl]
  split
  · rfl
  · rename_i hkept
    cases ha : api.service? i with
    | none => rfl
    | some a =>
      have hrestrict := Selection.restrict_skipping s (h.included i a ha (by simpa using hkept))
      exact congrArg some hrestrict

/-- Of the other methods the same ones are dropped. -/
theorem mem_droppedMethods_skipping (h : api.Detaches s id) {x : String} (hx : x ≠ id) :
    x ∈ api.droppedMethods (s.skipping id) ↔ x ∈ (api.withoutMethod id).droppedMethods s := by
  have hlisted : ∀ a : Service, x ∈ (a.withoutMethod id).methods ↔ x ∈ a.methods := by
    intro a
    simp [Service.withoutMethod, hx]
  have hlost : ∀ i a, api.service? i = some a → i ∉ api.droppedServices s →
      (x ∈ (s.skipping id).lostBy a ↔ x ∈ s.lostBy (a.withoutMethod id)) := by
    intro i a ha hkept
    have hkeeps := Selection.keepsMethod_skipping s hx (h.included i a ha hkept)
    unfold Selection.lostBy
    rw [List.mem_filter, List.mem_filter, hlisted, hkeeps]
  rw [mem_droppedMethods, mem_droppedMethods, droppedServices_skipping h.services,
    show (api.withoutMethod id).droppedServices s = api.droppedServices s from rfl]
  simp only [service?_withoutMethod, Option.map_eq_some_iff]
  refine or_congr ?_ ?_
  · constructor
    · rintro ⟨i, a, hi, ha, hxa⟩
      exact ⟨i, _, hi, ⟨a, ha, rfl⟩, (hlisted a).2 hxa⟩
    · rintro ⟨i, _, hi, ⟨a, ha, rfl⟩, hxa⟩
      exact ⟨i, a, hi, ha, (hlisted a).1 hxa⟩
  · constructor
    · rintro ⟨i, a, hi, ha, hxa⟩
      exact ⟨i, _, hi, ⟨a, ha, rfl⟩, (hlost i a ha hi).1 hxa⟩
    · rintro ⟨i, _, hi, ⟨a, ha, rfl⟩, hxa⟩
      exact ⟨i, a, hi, ha, (hlost i a ha hi).2 hxa⟩

/-- A skipped method that some service lists is dropped. -/
theorem self_mem_droppedMethods (h : api.Detaches s id) :
    id ∈ api.droppedMethods (s.skipping id) := by
  obtain ⟨i, a, ha, hid⟩ := h.listed
  rw [mem_droppedMethods]
  by_cases hi : i ∈ api.droppedServices (s.skipping id)
  · exact .inl ⟨i, a, hi, ha, hid⟩
  · refine .inr ⟨i, a, hi, ha, List.mem_filter.2 ⟨hid, ?_⟩⟩
    simp [Selection.keepsMethod, Selection.lists_skipping_self]

theorem method?_applySelection_skipping (h : api.Detaches s id) (x : String) :
    (api.applySelection (s.skipping id)).method? x =
      ((api.withoutMethod id).applySelection s).method? x := by
  rw [method?_applySelection, method?_applySelection, method?_withoutMethod]
  simp only [List.contains_iff_mem]
  by_cases hx : x = id
  · subst hx
    rw [if_pos (self_mem_droppedMethods h), if_pos rfl]
    split <;> rfl
  · rw [if_neg hx]
    simp only [mem_droppedMethods_skipping h hx]

/-- **Skipping a method leaves the surface of the model without it.** -/
theorem surface_applySelection_skipping (h : api.Detaches s id) :
    (api.applySelection (s.skipping id)).surface =
      ((api.withoutMethod id).applySelection s).surface := by
  have hlisted : (api.applySelection (s.skipping id)).services =
      ((api.withoutMethod id).applySelection s).services :=
    List.filter_congr fun x hx => Selection.keeps_skipping s (ne_of_mem_of_not_mem hx h.services)
  have hservices : (api.applySelection (s.skipping id)).registry.services =
      ((api.withoutMethod id).applySelection s).registry.services :=
    IdMap.ext (service?_applySelection_skipping h)
  have hmethods : (api.applySelection (s.skipping id)).registry.methods =
      ((api.withoutMethod id).applySelection s).registry.methods :=
    IdMap.ext (method?_applySelection_skipping h)
  unfold surface
  rw [hlisted, hservices, hmethods]
  rfl

end Api

end ApiModel
