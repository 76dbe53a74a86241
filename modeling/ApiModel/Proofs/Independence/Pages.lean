import ApiModel.Proofs.Independence.Surface
import ApiModel.Proofs.Keyed
import ApiModel.Proofs.Labelled

/-!
# Pages and the methods they are found for

Pagination records what it finds for a method on the method and on its response.  Of several methods
with one response, the last one in ID order decides what the response holds.

Principal results:

* `paginate_eq_edit` — pagination is an edit;
* `findings_declared` — what is found goes by what is declared;
* `pages_selected` — no other analysis ahead of documentation changes the pages of the messages;
* `pages_withoutMethod` — a method takes no part in the pages of a message that it does not return;
* `surface_selected_skipping` — **a configuration that skips a method selects the surface that it selects
  of the model without the method**.
-/

namespace ApiModel

open Outcome

/-! ## Filtered records -/

namespace IdMap

variable {α β κ : Type}

/-- Records of other elements are no matter to an element. -/
theorem latest_filter {key : κ → String} {value : κ → β} {p : κ → Bool} {x : String} {ks : List κ}
    (h : ∀ k ∈ ks, p k = false → key k ≠ x) (old : β) :
    latest key value (ks.filter p) x old = latest key value ks x old := by
  induction ks generalizing old with
  | nil => rfl
  | cons k rest ih =>
    rw [List.forall_mem_cons] at h
    cases hp : p k with
    | false =>
      have hother : x ≠ key k := (h.1 hp).symm
      rw [List.filter_cons_of_neg (by simp [hp]), ih h.2]
      unfold latest
      rw [List.foldl_cons, if_neg hother]
    | true =>
      rw [List.filter_cons_of_pos hp]
      exact ih h.2 _

/-- The elements besides the one with an ID. -/
theorem values_erase {m : IdMap α} {idOf : α → String} (h : m.KeyedBy idOf) (id : String) :
    (m.erase id).values = m.values.filter (idOf · != id) := by
  unfold values erase filter
  rw [List.filter_map]
  refine congrArg (List.map Prod.snd) (List.filter_congr fun e he => ?_)
  have hkey : idOf e.2 = e.1 := h e.1 e.2 (get?_eq_some_iff.2 he)
  simp [hkey]

theorem erase_map (m : IdMap α) (f : String → α → β) (id : String) :
    (m.map f).erase id = (m.erase id).map f := by
  apply ext
  intro x
  rw [get?_erase, get?_map, get?_map, get?_erase]
  split <;> rfl

end IdMap

/-! ## Findings -/

namespace Pagination

/-- What pagination finds, in the order of the methods. -/
def findings (api : Api) (overrides : List PaginationOverride) : List Finding :=
  api.registry.methods.values.filterMap (finding? api overrides)

/-- Whether messages page goes by what they declare. -/
theorem shape?_bare (request response : Message) (itemName : Option String) :
    shape? request.bare response.bare itemName = shape? request response itemName := by
  have hfind : ∀ (m : Message) {p : Field → Bool}, (∀ f, p f.bare = p f) →
      m.bare.fields.find? p = (m.fields.find? p).map Field.bare :=
    fun m _ h => Standard.find?_shape m h
  have hitem : itemName.elim (itemField? response.bare) response.bare.field? =
      (itemName.elim (itemField? response) response.field?).map Field.bare := by
    cases itemName with
    | none =>
      show itemField? response.bare = (itemField? response).map Field.bare
      unfold itemField?
      rw [hfind response fun _ => rfl, hfind response fun _ => rfl, Option.map_or]
    | some name => exact hfind response fun _ => rfl
  unfold shape?
  rw [hitem, hfind request fun _ => rfl, hfind request fun _ => rfl, hfind response fun _ => rfl]
  cases request.fields.find? isPageSize with
  | none => rfl
  | some size =>
    cases request.fields.find? isPageToken with
    | none => rfl
    | some token =>
      cases itemName.elim (itemField? response) response.field? with
      | none => rfl
      | some item => cases response.fields.find? isNextPageToken <;> rfl

theorem finding?_declared (api : Api) (overrides : List PaginationOverride) (m : Method) :
    finding? api.declared overrides m.bare = finding? api overrides m := by
  unfold finding?
  rw [Api.message?_declared, Api.message?_declared, show m.bare.inputTypeId = m.inputTypeId from rfl,
    show m.bare.outputTypeId = m.outputTypeId from rfl]
  cases api.message? m.inputTypeId with
  | none => rfl
  | some request =>
    cases api.message? m.outputTypeId with
    | none => rfl
    | some response =>
      have hshape := shape?_bare request response (overriding? overrides m.id)
      show (shape? request.bare response.bare (overriding? overrides m.id)).bind _ = _
      rw [hshape]
      rfl

/-- What is found goes by what is declared. -/
theorem findings_declared (api : Api) (overrides : List PaginationOverride) :
    findings api.declared overrides = findings api overrides := by
  have hvalues : api.declared.registry.methods.values = api.registry.methods.values.map Method.bare :=
    IdMap.values_map _ _
  unfold findings
  rw [hvalues, List.filterMap_map]
  exact List.filterMap_congr fun m _ => finding?_declared api overrides m

/-- A finding names its method and the response that the method declares. -/
theorem ids_of_finding? {api : Api} {overrides : List PaginationOverride} {m : Method} {f : Finding}
    (h : finding? api overrides m = some f) :
    f.methodId = m.id ∧ ∃ response, api.message? m.outputTypeId = some response ∧
      f.responseId = response.id := by
  unfold finding? at h
  obtain ⟨request, -, h⟩ := Option.bind_eq_some_iff.1 h
  obtain ⟨response, hresponse, h⟩ := Option.bind_eq_some_iff.1 h
  obtain ⟨shape, -, h⟩ := Option.bind_eq_some_iff.1 h
  obtain rfl := Option.some.inj h
  exact ⟨rfl, response, hresponse, rfl⟩

/-- Without a method everything else is found. -/
theorem findings_withoutMethod {api : Api} (hkeyed : api.registry.methods.KeyedBy (·.id))
    (overrides : List PaginationOverride) (id : String) :
    findings (api.withoutMethod id) overrides =
      (findings api overrides).filter (·.methodId != id) := by
  unfold findings
  rw [show (api.withoutMethod id).registry.methods = api.registry.methods.erase id from rfl,
    IdMap.values_erase hkeyed, List.filterMap_filter, List.filter_filterMap]
  refine List.filterMap_congr fun m _ => ?_
  show (if m.id != id then finding? api overrides m else none) = _
  cases hfinding : finding? api overrides m with
  | none => simp
  | some f =>
    rw [← (ids_of_finding? hfinding).1]
    rfl

end Pagination

/-! ## Pagination as an edit -/

/-- Records what was found. -/
def Edit.paginating (found : List Pagination.Finding) : Edit :=
  { message := fun id m => { m with
      pagination := IdMap.latest (·.responseId) (some ·.info) found id m.pagination }
    method := fun id m => { m with
      pagination := IdMap.latest (·.methodId) (some ·.pageToken) found id m.pagination } }

namespace Api

open Pagination

theorem foldl_record_findings (api : Api) (found : List Finding) :
    found.foldl record api = { api with
      registry.methods := found.foldl (fun methods f => methods.modify f.methodId fun m =>
        { m with pagination := some f.pageToken }) api.registry.methods
      registry.messages := found.foldl (fun messages f => messages.modify f.responseId fun m =>
        { m with pagination := some f.info }) api.registry.messages } := by
  induction found generalizing api with
  | nil => rfl
  | cons f rest ih => exact ih (record api f)

/-- **Pagination is an edit.** -/
theorem paginate_eq_edit (api : Api) (overrides : List PaginationOverride) :
    api.paginate overrides = api.edit (.paginating (findings api overrides)) := by
  have hmethods := IdMap.foldl_modify_part Method.pagination
    (fun token m => { m with pagination := token }) Finding.methodId (some ·.pageToken)
    (fun _ => rfl) (fun _ _ => rfl) (fun _ _ _ => rfl) api.registry.methods (findings api overrides)
  have hmessages := IdMap.foldl_modify_part Message.pagination
    (fun info m => { m with pagination := info }) Finding.responseId (some ·.info)
    (fun _ => rfl) (fun _ _ => rfl) (fun _ _ _ => rfl) api.registry.messages (findings api overrides)
  have hrecord := foldl_record_findings api (findings api overrides)
  rw [hmethods, hmessages] at hrecord
  show (findings api overrides).foldl record api = _
  rw [hrecord]
  simp only [edit, Edit.paginating, IdMap.map_self]

/-! ## Pages of messages -/

/-- The pages that are recorded on the messages. -/
def pages (api : Api) : IdMap (Option PaginationInfo) :=
  api.registry.messages.map fun _ => Message.pagination

theorem pages_crossReference (api : Api) : api.crossReference.state.pages = api.pages := by
  rw [crossReference_eq_chain]
  unfold passes
  simp only [chain]
  refine andThen_frame pages ?_ fun api => ?_
  · exact IdMap.map_sweep_state Message.pagination fun _ => rfl
  refine andThen_frame pages rfl fun api => ?_
  refine andThen_frame pages rfl fun api => ?_
  refine andThen_frame pages rfl fun api => ?_
  refine andThen_frame pages ?_ fun _ => rfl
  exact IdMap.map_map _ _ _

theorem pages_labelRecursive (api : Api) : api.labelRecursive.pages = api.pages :=
  IdMap.map_map _ _ _

theorem pages_applySelection (api : Api) (s : Selection) :
    (api.applySelection s).pages = api.pages :=
  IdMap.map_map _ _ _

theorem pages_paginate (api : Api) (overrides : List PaginationOverride) :
    (api.paginate overrides).pages =
      api.pages.map (IdMap.latest (·.responseId) (some ·.info) (findings api overrides)) := by
  rw [paginate_eq_edit]
  unfold pages edit
  rw [IdMap.map_map_keyed, IdMap.map_map_keyed]
  rfl

/-- A method takes no part in the pages of a message that it does not return. -/
theorem pages_withoutMethod {api : Api} (hkeyed : api.Keyed) (overrides : List PaginationOverride)
    {id responseId : String}
    (hother : ∀ m, api.method? id = some m → m.outputTypeId ≠ responseId) :
    ((api.withoutMethod id).paginate overrides).pages.get? responseId =
      (api.paginate overrides).pages.get? responseId := by
  have hfound : ∀ f ∈ findings api overrides, (f.methodId != id) = false →
      f.responseId ≠ responseId := by
    intro f hf hid
    rw [bne_eq_false_iff_eq] at hid
    obtain ⟨m, hm, hfinding⟩ := List.mem_filterMap.1 hf
    obtain ⟨hmethod, response, hresponse, hids⟩ := ids_of_finding? hfinding
    obtain ⟨k, hk⟩ := IdMap.mem_values_iff.1 hm
    have hkey : m.id = k := hkeyed.methods k m hk
    have hresponseKey : response.id = m.outputTypeId := hkeyed.messages _ response hresponse
    rw [hids, hresponseKey]
    exact hother m (by rw [← hid, hmethod, hkey]; exact hk)
  rw [pages_paginate, pages_paginate, findings_withoutMethod hkeyed.methods, IdMap.get?_map,
    IdMap.get?_map]
  exact congrArg (Option.map · _) (funext (IdMap.latest_filter hfound))

/-- **No other analysis ahead of documentation changes the pages.** -/
theorem pages_selected (c : Config) (raw : Api) :
    (raw.selected c).crossReference.state.pages = (raw.paginate c.paginationOverrides).pages := by
  rw [pages_crossReference, selected, pages_applySelection, pages_labelRecursive, pages_paginate,
    pages_paginate, pages_crossReference, ← findings_declared, declared_crossReference,
    findings_declared]

/-! ## The surface that is selected -/

theorem surface_paginate (api : Api) (overrides : List PaginationOverride) :
    (api.paginate overrides).surface =
      api.surface.edit (.paginating (findings api overrides)) := by
  have hmethods : ∀ (methods : IdMap Method) (f : String → Option String → Option String),
      ((methods.map fun id m => { m with pagination := f id m.pagination }).map
        fun _ => Method.unlinked) =
      (methods.map fun _ => Method.unlinked).map fun id m =>
        { m with pagination := f id m.pagination } := by
    intro methods f
    rw [IdMap.map_map_keyed, IdMap.map_map_keyed]
    rfl
  rw [paginate_eq_edit]
  unfold surface edit Edit.paginating
  simp only [hmethods, IdMap.map_self]
  rfl

/-- The model ahead of the selection. -/
def preselected (c : Config) (raw : Api) : Api :=
  (raw.crossReference.state.paginate c.paginationOverrides).labelRecursive

theorem surface_preselected (c : Config) (raw : Api) :
    (raw.preselected c).surface =
      raw.surface.edit (.paginating (findings raw c.paginationOverrides)) := by
  rw [preselected, surface_labelRecursive, surface_paginate, surface_crossReference,
    ← findings_declared, declared_crossReference, findings_declared]

theorem surface_edit_withoutMethod (api : Api) (found : List Finding) (id : String) :
    (api.surface.withoutMethod id).edit (.paginating (found.filter (·.methodId != id))) =
      (api.surface.edit (.paginating found)).withoutMethod id := by
  have hmethods : ∀ methods : IdMap Method,
      ((methods.erase id).map (Edit.paginating (found.filter (·.methodId != id))).method) =
        (methods.map (Edit.paginating found).method).erase id := by
    intro methods
    rw [IdMap.erase_map]
    apply IdMap.ext
    intro x
    rw [IdMap.get?_map, IdMap.get?_map, IdMap.get?_erase]
    split
    · rfl
    · rename_i hx
      have hother : ∀ f ∈ found, (f.methodId != id) = false → f.methodId ≠ x := by
        intro f _ hf
        rw [bne_eq_false_iff_eq] at hf
        rw [hf]
        exact Ne.symm hx
      simp only [Edit.paginating, IdMap.latest_filter hother]
  have hservices : ∀ services : IdMap Service,
      services.map (Edit.paginating found).service = services := fun _ => IdMap.map_self _
  have hservices' : ∀ services : IdMap Service,
      services.map (Edit.paginating (found.filter (·.methodId != id))).service = services :=
    fun _ => IdMap.map_self _
  unfold edit withoutMethod
  simp only [hmethods, hservices, hservices']
  rfl

/-- **A configuration that skips a method selects the surface that it selects of the model without the
method.** -/
theorem surface_selected_skipping {c : Config} {raw : Api} {id : String} (hkeyed : raw.Keyed)
    (h : raw.Detaches c.selection id) :
    (raw.selected (c.skipping id)).surface = ((raw.withoutMethod id).selected c).surface := by
  have hwhole := surface_preselected c raw
  have hwithout : ((raw.withoutMethod id).preselected c).surface =
      ((raw.preselected c).withoutMethod id).surface := by
    rw [surface_preselected, surface_withoutMethod, findings_withoutMethod hkeyed.methods,
      surface_edit_withoutMethod, ← hwhole, surface_withoutMethod]
  have hdetaches : (raw.preselected c).Detaches c.selection id := by
    rw [← detaches_surface, hwhole]
    exact (detaches_surface.2 h).of_services rfl (IdMap.map_self _)
  have hskip := surface_applySelection_skipping hdetaches
  show ((raw.preselected c).applySelection (c.selection.skipping id)).surface =
    (((raw.withoutMethod id).preselected c).applySelection c.selection).surface
  rw [hskip, surface_applySelection, surface_applySelection, hwithout]

end Api

end ApiModel
