import ApiModel.Proofs.Retouch

/-!
# Labelled models

A field is recursive or not by the declared fields of the messages alone, and only labelling writes it
down.

Principal results:

* `recursiveFieldIds_of_contents` — which fields are recursive depends on the declared fields only;
* `labelRecursive_eq_self_iff` — labelling has nothing to do if and only if all fields are labelled;
* `labels_crossReference`, `lasting_labelled` — cross-referencing and retouching leave the labels alone.
-/

namespace ApiModel

open Outcome

namespace Api

variable {api other : Api}

/-! ## Recursion goes by the declared fields -/

/-- The messages, each with its ID and its declared fields. -/
def contents (api : Api) : IdMap (String × List Field) :=
  api.registry.messages.map fun _ m => (m.id, m.fields.map Field.bare)

theorem referred_of_contents (h : other.contents = api.contents) (id : String) :
    other.referred id = api.referred id := by
  have hreferred : ∀ api : Api, api.referred id = (api.contents.get? id).elim [] fun m =>
      (m.2.filter (·.isMessage)).map (·.typeId) := by
    intro api
    have hget : api.contents.get? id =
        (api.message? id).map fun m => (m.id, m.fields.map Field.bare) := IdMap.get?_map _ _ _
    rw [hget]
    unfold referred
    cases api.message? id with
    | none => rfl
    | some m =>
      simp only [Option.map_some, Option.elim_some, List.filter_map, List.map_map]
      rfl
  rw [hreferred, h, hreferred]

theorem search_of_contents (h : other.contents = api.contents) (target : String)
    (visited pending : List String) :
    other.search target visited pending = api.search target visited pending := by
  fun_induction api.search target visited pending with
  | case1 visited => rw [search]
  | case2 visited id pending hfound => rw [search, if_pos hfound]
  | case3 visited id pending hother hold ih => rw [search, if_neg hother, dif_pos hold, ih]
  | case4 visited id pending hother hnew ih =>
    rw [search, if_neg hother, dif_neg hnew, referred_of_contents h, ih]

/-- Which fields are recursive depends on the declared fields only. -/
theorem recursiveFieldIds_of_contents (h : other.contents = api.contents) :
    other.recursiveFieldIds = api.recursiveFieldIds := by
  have hleads : other.leadsTo = api.leadsTo := by
    funext typeId target
    exact search_of_contents h target [] [typeId]
  have hvalues : ∀ api : Api, api.recursiveFieldIds = api.contents.values.flatMap fun m =>
      (m.2.filter fun f => f.isMessage && api.leadsTo f.typeId m.1).map (·.id) := by
    intro api
    have hmap : api.contents.values =
        api.registry.messages.values.map fun m => (m.id, m.fields.map Field.bare) :=
      IdMap.values_map _ _
    rw [hmap, List.flatMap_map]
    unfold recursiveFieldIds
    refine List.flatMap_congr fun m _ => ?_
    rw [List.filter_map, List.map_map]
    rfl
  rw [hvalues, hvalues, h, hleads]

theorem contents_of_declared (h : other.declared = api.declared) :
    other.contents = api.contents := by
  have hcontents : ∀ api : Api, api.declared.contents = api.contents := by
    intro api
    unfold contents declared
    simp only [IdMap.map_map]
    have hbare : ∀ m : Message, m.bare.fields.map Field.bare = m.fields.map Field.bare := by
      intro m
      unfold Message.bare
      rw [List.map_map]
      rfl
    simp only [hbare]
    rfl
  rw [← hcontents, h, hcontents]

theorem contents_applySelection (api : Api) (s : Selection) :
    (api.applySelection s).contents = api.contents := by
  unfold contents applySelection
  rw [IdMap.map_map]

theorem contents_edit {e : Edit} (h : e.KeepsShapes) (api : Api) :
    (api.edit e).contents = api.contents := by
  unfold contents edit
  rw [IdMap.map_map_keyed]
  congr 1
  funext id m
  have hid : (e.message id m).shape.id = m.shape.id := by rw [h.message]
  have hfields : (e.message id m).shape.fields = m.shape.fields := by rw [h.message]
  exact Prod.ext hid hfields

/-! ## Labels -/

/-- The labels of the messages. -/
def labels (api : Api) : IdMap (List (String × Bool)) :=
  api.registry.messages.map fun _ => Message.labels

/-- Every field is labelled as recursive if and only if it is so. -/
def Labelled (api : Api) : Prop :=
  ∀ id ls, api.labels.get? id = some ls → ∀ l ∈ ls, l.2 = api.recursiveFieldIds.contains l.1

theorem labelled_congr (hcontents : other.contents = api.contents)
    (hlabels : other.labels = api.labels) (h : api.Labelled) : other.Labelled := by
  unfold Labelled at h ⊢
  rwa [hlabels, recursiveFieldIds_of_contents hcontents]

theorem labelled_labelRecursive (api : Api) : api.labelRecursive.Labelled := by
  have hcontents := contents_of_declared (declared_labelRecursive api)
  intro id ls hls l hl
  rw [recursiveFieldIds_of_contents hcontents]
  unfold labels labelRecursive at hls
  rw [IdMap.get?_map, IdMap.get?_map, Option.map_map] at hls
  obtain ⟨m, -, rfl⟩ := Option.map_eq_some_iff.1 hls
  simp only [Function.comp_apply, Message.labels, List.map_map] at hl
  obtain ⟨f, -, rfl⟩ := List.mem_map.1 hl
  rfl

/-- Labelling changes nothing if and only if all fields are labelled already. -/
theorem labelRecursive_eq_self_iff : api.labelRecursive = api ↔ api.Labelled := by
  constructor
  · intro h
    rw [← h]
    exact labelled_labelRecursive api
  · intro h
    have hmessages : (api.registry.messages.map fun _ m => { m with
        fields := m.fields.map fun f =>
          { f with recursive := api.recursiveFieldIds.contains f.id } }) =
            api.registry.messages := by
      rw [IdMap.map_eq_self_iff]
      intro id m hm
      have hfields : ∀ f ∈ m.fields,
          ({ f with recursive := api.recursiveFieldIds.contains f.id } : Field) = f := by
        intro f hf
        have hlabel := h id m.labels (by rw [labels, IdMap.get?_map, hm]; rfl)
          (f.id, f.recursive) (List.mem_map_of_mem hf)
        rw [← hlabel]
      rw [List.map_congr_left hfields, List.map_id']
    unfold labelRecursive
    simp only [hmessages]

theorem labels_linkMessage (r : Registry) (m : Message) :
    (r.linkMessage m).state.labels = m.labels := by
  unfold Registry.linkMessage Message.labels
  rw [map_state]
  refine andThen_frame (List.map fun f : Field => (f.id, f.recursive)) ?_ fun fields => ?_
  · refine map_sweep_state _ (fun f => ?_) m.fields
    rw [linkField_state]
  · refine fold_frame (List.map _) (fun fields member => ?_) fields m.groupMembers
    rw [joinGroup_state]
    exact map_list_modify (f := Field.inGroup m.id member.1) _ (fun _ => rfl) fields _

theorem labels_crossReference (api : Api) : api.crossReference.state.labels = api.labels := by
  rw [crossReference_eq_chain]
  unfold passes
  simp only [chain]
  refine andThen_frame labels ?_ fun api => ?_
  · exact IdMap.map_sweep_state Message.labels (labels_linkMessage api.registry)
  refine andThen_frame labels rfl fun api => ?_
  refine andThen_frame labels rfl fun api => ?_
  refine andThen_frame labels rfl fun api => ?_
  refine andThen_frame labels ?_ fun _ => rfl
  exact IdMap.map_map _ _ _

theorem lasting_labelled : Lasting Labelled := by
  intro api e he h
  refine labelled_congr (contents_edit he.keepsShapes api) ?_ h
  unfold labels edit
  rw [IdMap.map_map_keyed]
  congr 1
  funext id m
  exact (he.message id m).labels

end Api

end ApiModel
