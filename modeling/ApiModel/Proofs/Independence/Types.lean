import ApiModel.Proofs.Independence.Pages

/-!
# The types of a model

The messages and the enumerations, apart from the lists of nested types and from the pages that are
found.  Up to the second run of cross-referencing the analyses make of them what the types alone say,
whatever the services and the methods are.

Principal results:

* `types_crossReference` — what cross-referencing makes of the types, if it meets no defect;
* `types_selected_congr` — **models with the same types are selected with the same types**, whatever their
  methods are and whatever is skipped.
-/

namespace ApiModel

open Outcome

/-! ## Types -/

/-- The message without nested types and without pages. -/
def Message.plain (m : Message) : Message :=
  { m with messages := [], enums := [], pagination := none }

/-- The types of a registry, linked and with samples. -/
def Registry.linkedTypes (r : Registry) : Registry :=
  { messages := r.messages.map fun _ m => (r.linkMessage m).state.withSamples
    enums := r.enums.map fun _ e => e.linkValues.withSamples }

namespace Api

/-- The types of a model. -/
def types (api : Api) : Registry :=
  { messages := api.registry.messages.map fun _ => Message.plain, enums := api.registry.enums }

variable {api other : Api} {c c' : Config}

/-- Where cross-referencing meets no defect it runs to its end. -/
theorem crossReference_state_of_ok (h : api.crossReference.defect = none) :
    api.linkFields.defect = none ∧
      api.crossReference.state =
        (api.linkFields.state.linkEnums.linkMethods.state.linkServices.state).enriched := by
  rw [crossReference_eq_chain] at h ⊢
  simp only [passes, chain, andThen_defect_eq_none_iff] at h ⊢
  obtain ⟨hfields, -, hmethods, hservices, -⟩ := h
  refine ⟨hfields, ?_⟩
  rw [andThen_of_ok hfields, andThen_of_ok rfl, andThen_of_ok hmethods, andThen_of_ok hservices]
  rfl

/-- What cross-referencing makes of the types, if it meets no defect. -/
theorem types_crossReference (h : api.crossReference.defect = none) :
    api.crossReference.state.types = api.types.linkedTypes := by
  obtain ⟨hfields, hstate⟩ := crossReference_state_of_ok h
  have hlink : api.types.linkMessage = api.registry.linkMessage :=
    linkMessage_congr (IdMap.contains_map _ _) fun _ => rfl
  have hplain : ∀ m : Message, (api.registry.linkMessage m).state.withSamples.plain =
      (api.registry.linkMessage m.plain).state.withSamples := fun _ => rfl
  have hmessages : api.linkFields.state.registry.messages =
      api.registry.messages.map fun _ m => (api.registry.linkMessage m).state :=
    IdMap.sweep_state_of_ok hfields
  rw [hstate]
  show ({ messages := (api.linkFields.state.registry.messages.map fun _ => Message.withSamples).map
            fun _ => Message.plain
          enums := (api.registry.enums.map fun _ => Enumeration.linkValues).map
            fun _ => Enumeration.withSamples } : Registry) = _
  rw [hmessages]
  unfold Registry.linkedTypes
  simp only [hlink]
  simp only [types, IdMap.map_map, hplain]

theorem types_paginate (api : Api) (overrides : List PaginationOverride) :
    (api.paginate overrides).types = api.types := by
  rw [paginate_eq_edit]
  unfold types edit
  rw [IdMap.map_map_keyed, show api.registry.enums.map (Edit.paginating _).enumeration = _ from
    IdMap.map_self _]
  rfl

theorem types_applySelection (api : Api) (s : Selection) :
    (api.applySelection s).types = api.types := by
  unfold types applySelection
  rw [IdMap.map_map]
  rfl

/-- Which fields are recursive the types say. -/
theorem types_labelRecursive_congr (h : other.types = api.types) :
    other.labelRecursive.types = api.labelRecursive.types := by
  have hcontents : ∀ api : Api, api.contents =
      api.types.messages.map fun _ m => (m.id, m.fields.map Field.bare) := by
    intro api
    unfold types
    rw [IdMap.map_map]
    rfl
  have hids : other.recursiveFieldIds = api.recursiveFieldIds := by
    apply recursiveFieldIds_of_contents
    rw [hcontents, hcontents, h]
  have hlabel : ∀ api : Api, api.labelRecursive.types =
      { api.types with messages := api.types.messages.map fun _ m => { m with
          fields := m.fields.map fun f =>
            { f with recursive := api.recursiveFieldIds.contains f.id } } } := by
    intro api
    unfold types labelRecursive
    rw [IdMap.map_map, IdMap.map_map]
    rfl
  rw [hlabel, hlabel, h, hids]

theorem types_crossReference_congr (h : other.types = api.types)
    (hother : other.crossReference.defect = none) (hapi : api.crossReference.defect = none) :
    other.crossReference.state.types = api.crossReference.state.types := by
  rw [types_crossReference hother, types_crossReference hapi, h]

/-- **Models with the same types are selected with the same types**, whatever their methods are and
whatever is skipped. -/
theorem types_selected_congr (h : other.types = api.types)
    (hother : other.crossReference.defect = none) (hapi : api.crossReference.defect = none) :
    (other.selected c').types = (api.selected c).types := by
  rw [selected, selected, types_applySelection, types_applySelection]
  apply types_labelRecursive_congr
  rw [types_paginate, types_paginate]
  exact types_crossReference_congr h hother hapi

end Api

end ApiModel
