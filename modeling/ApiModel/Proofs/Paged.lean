import ApiModel.Proofs.Independence.Traits
import ApiModel.Proofs.Stable

/-!
# Pages of a model that was built

Pagination reads the raw model.  What it records on methods and messages stays through the selection and
everything that a configuration overrides, so that each element of the model that was built holds what was
found in the raw one.

Principal results:

* `method?_of_analyse`, `message?_of_analyse` — the shape of each element of the model that was built;
* `mem_findings_iff` — what is found in a keyed model;
* `paged_of_analyse` — **a paginated method of the model that was built has a response with pages**, and
  what they name are fields of its request and of its response.
-/

namespace ApiModel

namespace IdMap

variable {α : Type}

/-- What is to hold of every element can be decided where it can be of each. -/
instance decidableForall (m : IdMap α) (P : String → α → Prop) [∀ id a, Decidable (P id a)] :
    Decidable (∀ id a, m.get? id = some a → P id a) :=
  decidable_of_iff (∀ e ∈ m.entries, P e.1 e.2)
    ⟨fun h id a ha => h (id, a) (get?_eq_some_iff.1 ha),
      fun h e he => h e.1 e.2 (get?_eq_some_iff.2 he)⟩

end IdMap

/-! ## Fields by name -/

theorem Message.isSome_field?_of_mem {m : Message} {f : Field} (h : f ∈ m.fields) :
    (m.field? f.name).isSome := by
  unfold field?
  rw [List.find?_isSome]
  exact ⟨f, h, by simp⟩

theorem Message.name_of_field? {m : Message} {name : String} {f : Field}
    (h : m.field? name = some f) : f.name = name := by
  simpa using List.find?_some h

/-! ## Findings -/

namespace Pagination

variable {api : Api} {overrides : List PaginationOverride} {f : Finding} {request response : Message}
  {itemName : Option String} {found : String × PaginationInfo}

/-- What makes messages page. -/
structure Shaped (request response : Message) (itemName : Option String)
    (found : String × PaginationInfo) (token item next : Field) : Prop where
  hasSize : (request.fields.find? isPageSize).isSome
  isToken : request.fields.find? isPageToken = some token
  isItem : itemName.elim (itemField? response) response.field? = some item
  isNext : response.fields.find? isNextPageToken = some next
  names : found = (token.name, { nextPageToken := next.name, pageableItem := item.name })

theorem shape?_eq_some_iff :
    shape? request response itemName = some found ↔
      ∃ token item next, Shaped request response itemName found token item next := by
  unfold shape?
  constructor
  · intro h
    obtain ⟨size, hsize, h⟩ := Option.bind_eq_some_iff.1 h
    obtain ⟨token, htoken, h⟩ := Option.bind_eq_some_iff.1 h
    obtain ⟨item, hitem, h⟩ := Option.bind_eq_some_iff.1 h
    obtain ⟨next, hnext, h⟩ := Option.bind_eq_some_iff.1 h
    exact ⟨token, item, next, by simp [hsize], htoken, hitem, hnext, (Option.some.inj h).symm⟩
  · rintro ⟨token, item, next, hsize, htoken, hitem, hnext, rfl⟩
    obtain ⟨size, hsize⟩ := Option.isSome_iff_exists.1 hsize
    rw [hsize, htoken, hitem, hnext]
    rfl

/-- The item field is one of the response. -/
theorem mem_of_item {item : Field}
    (h : itemName.elim (itemField? response) response.field? = some item) :
    item ∈ response.fields := by
  cases itemName with
  | none =>
    rcases Option.or_eq_some_iff.1 h with hlist | ⟨-, hmap⟩
    · exact List.mem_of_find?_eq_some hlist
    · exact List.mem_of_find?_eq_some hmap
  | some name => exact List.mem_of_find?_eq_some h

/-- What is found names fields of the messages. -/
theorem isSome_field?_of_shape? (h : shape? request response itemName = some found) :
    (request.field? found.1).isSome ∧ (response.field? found.2.nextPageToken).isSome ∧
      (response.field? found.2.pageableItem).isSome := by
  obtain ⟨token, item, next, hshaped⟩ := shape?_eq_some_iff.1 h
  obtain rfl := hshaped.names
  exact ⟨Message.isSome_field?_of_mem (List.mem_of_find?_eq_some hshaped.isToken),
    Message.isSome_field?_of_mem (List.mem_of_find?_eq_some hshaped.isNext),
    Message.isSome_field?_of_mem (mem_of_item hshaped.isItem)⟩

/-- The method that something is found for, with its messages. -/
structure FoundFor (api : Api) (overrides : List PaginationOverride) (f : Finding) (m : Method)
    (request response : Message) : Prop where
  method : api.method? f.methodId = some m
  input : api.message? m.inputTypeId = some request
  output : api.message? m.outputTypeId = some response
  responseId : f.responseId = m.outputTypeId
  shape : shape? request response (overriding? overrides m.id) = some (f.pageToken, f.info)

theorem mem_findings_iff (hkeyed : api.Keyed) :
    f ∈ findings api overrides ↔
      ∃ m request response, FoundFor api overrides f m request response := by
  unfold findings
  rw [List.mem_filterMap]
  constructor
  · rintro ⟨m, hm, hf⟩
    obtain ⟨id, hm⟩ := IdMap.mem_values_iff.1 hm
    have hid : m.id = id := hkeyed.methods id m hm
    obtain ⟨hmethod, output, houtput, hresponse⟩ := ids_of_finding? hf
    have hkey : output.id = m.outputTypeId := hkeyed.messages _ output houtput
    unfold finding? at hf
    obtain ⟨request, hrequest, hf⟩ := Option.bind_eq_some_iff.1 hf
    obtain ⟨response, hresponse', hf⟩ := Option.bind_eq_some_iff.1 hf
    obtain ⟨⟨token, info⟩, hshape, hf⟩ := Option.bind_eq_some_iff.1 hf
    refine ⟨m, request, response, ?_, hrequest, hresponse', hresponse.trans hkey, ?_⟩
    · rw [hmethod, hid]
      exact hm
    · obtain rfl := Option.some.inj hf
      exact hshape
  · rintro ⟨m, request, response, hmethod, hrequest, hresponse, hid, hshape⟩
    refine ⟨m, IdMap.mem_values_iff.2 ⟨_, hmethod⟩, ?_⟩
    have hkey : response.id = f.responseId := (hkeyed.messages _ response hresponse).trans hid.symm
    have hself : m.id = f.methodId := hkeyed.methods _ m hmethod
    unfold finding?
    rw [hrequest, hresponse]
    show (shape? request response (overriding? overrides m.id)).bind _ = _
    rw [hshape, Option.bind_some, hkey, hself]
    rfl

end Pagination

namespace Api

open Pagination

variable {c : Config} {raw api : Api} {e : Edit}

/-- No method and no message has pages. -/
structure Unpaged (api : Api) : Prop where
  methods : ∀ id m, api.method? id = some m → m.pagination = none
  messages : ∀ id m, api.message? id = some m → m.pagination = none

instance (api : Api) : Decidable api.Unpaged :=
  decidable_of_iff
    ((∀ id m, api.registry.methods.get? id = some m → m.pagination = none) ∧
      ∀ id m, api.registry.messages.get? id = some m → m.pagination = none)
    ⟨fun h => ⟨h.1, h.2⟩, fun h => ⟨h.methods, h.messages⟩⟩

/-! ## What stays of methods and messages -/

/-- The page token of a method behind pagination. -/
def foundToken (c : Config) (raw : Api) (id : String) (m : Method) : Option String :=
  IdMap.latest (·.methodId) (some ·.pageToken) (findings raw c.paginationOverrides) id m.pagination

/-- The pages of a message behind pagination. -/
def foundPages (c : Config) (raw : Api) (id : String) (m : Message) : Option PaginationInfo :=
  IdMap.latest (·.responseId) (some ·.info) (findings raw c.paginationOverrides) id m.pagination

/-- The methods by what traits go by. -/
def methodShapes (api : Api) : IdMap Method := api.registry.methods.map fun _ => Method.shape

theorem methodShapes_surface (api : Api) : api.surface.methodShapes = api.methodShapes := by
  unfold methodShapes surface
  rw [IdMap.map_map]
  simp only [Method.shape_unlinked]

theorem methodShapes_edit (h : e.KeepsShapes) (api : Api) :
    (api.edit e).methodShapes = api.methodShapes := by
  unfold methodShapes edit
  rw [IdMap.map_map_keyed]
  simp only [h.method]

theorem pages_edit (h : e.KeepsShapes) (api : Api) : (api.edit e).pages = api.pages := by
  unfold pages edit
  rw [IdMap.map_map_keyed]
  refine congrArg (IdMap.map api.registry.messages) (funext fun id => funext fun m => ?_)
  have hshape := congrArg Message.pagination (h.message id m)
  exact hshape

/-- Nothing behind the second cross-referencing changes the shapes of methods and the pages. -/
theorem shapes_of_analyse (h : raw.analyse c = .ok api) :
    api.methodShapes = ((raw.preselected c).applySelection c.selection).methodShapes ∧
      api.pages = (raw.paginate c.paginationOverrides).pages := by
  have hlasting : ∀ shapes pages,
      Lasting fun api => api.methodShapes = shapes ∧ api.pages = pages := by
    intro shapes pages api e he hapi
    rwa [methodShapes_edit he.keepsShapes, pages_edit he.keepsShapes]
  obtain ⟨-, -, -, -, found, hfound, rfl⟩ := analyse_eq_ok_iff.1 h
  have hmethods : (raw.selected c).crossReference.state.methodShapes =
      ((raw.preselected c).applySelection c.selection).methodShapes := by
    have hsurface := surface_crossReference (raw.selected c)
    rw [← methodShapes_surface, hsurface, methodShapes_surface]
    rfl
  have hdocumented := (hlasting _ _).overrideDocumentations ⟨hmethods, pages_selected c raw⟩
    c.documentationOverrides
  exact (hlasting _ _).applyOverrides ((hlasting _ _).identifyTargets hdocumented hfound) c

/-- **The methods of the model that was built** are those of the raw model that the selection keeps, with
the tokens that were found. -/
theorem method?_of_analyse (h : raw.analyse c = .ok api) (id : String) :
    (api.method? id).map Method.shape =
      if ((raw.preselected c).droppedMethods c.selection).contains id then none
      else (raw.method? id).map fun m => { m.bare with pagination := raw.foundToken c id m } := by
  have hshapes := congrArg (·.get? id) (shapes_of_analyse h).1
  have hpaginated : ((raw.preselected c).method? id).map Method.shape =
      (raw.method? id).map fun m => { m.bare with pagination := raw.foundToken c id m } := by
    have hsurface := congrArg (·.methodShapes.get? id) (surface_preselected c raw)
    simp only [methodShapes_surface] at hsurface
    simp only [methodShapes, edit, surface, IdMap.get?_map, Option.map_map] at hsurface
    refine hsurface.trans (congrArg (Option.map · (raw.method? id)) (funext fun m => ?_))
    have hbare : m.unlinked.bare = m.bare := by
      have hshape := congrArg ({ · with pagination := none } : Method → Method) m.shape_unlinked
      exact hshape
    show { m.unlinked.bare with pagination := raw.foundToken c id m } = _
    rw [hbare]
  simp only [methodShapes, IdMap.get?_map] at hshapes
  refine hshapes.trans ?_
  show (((raw.preselected c).applySelection c.selection).method? id).map _ = _
  rw [method?_applySelection]
  split
  · rfl
  · exact hpaginated

/-- **The messages of the model that was built** are those of the raw model, with the nested types that
the selection lists and with the pages that were found. -/
theorem message?_of_analyse (h : raw.analyse c = .ok api) (id : String) :
    (api.message? id).map Message.shape =
      (raw.message? id).map fun m => { m.bare with
        messages := m.messages.filter c.selection.lists
        enums := m.enums.filter c.selection.lists
        pagination := raw.foundPages c id m } := by
  have hbare := congrArg (·.message? id) (declared_of_analyse h)
  have hpages := congrArg (·.get? id) (shapes_of_analyse h).2
  simp only [message?_applySelection, message?_declared] at hbare
  rw [pages_paginate] at hpages
  simp only [pages, IdMap.get?_map] at hpages
  rw [show api.registry.messages.get? id = api.message? id from rfl,
    show raw.registry.messages.get? id = raw.message? id from rfl] at hpages
  cases hraw : raw.message? id with
  | none =>
    rw [hraw] at hbare
    cases hapi : api.message? id with
    | none => rfl
    | some m =>
      rw [hapi] at hbare
      cases hbare
  | some m =>
    rw [hraw] at hbare hpages
    obtain ⟨n, hn, hbare⟩ := Option.map_eq_some_iff.1 hbare
    rw [hn] at hpages ⊢
    unfold Message.shape
    simp only [Option.map_some, Option.some.injEq] at hpages ⊢
    rw [hbare, hpages]
    rfl

/-- A method of the model that was built is one of the raw model. -/
theorem method_of_analyse (h : raw.analyse c = .ok api) {id : String} {m : Method}
    (hm : api.method? id = some m) :
    ∃ source, raw.method? id = some source ∧ m.bare = source.bare ∧
      m.pagination = raw.foundToken c id source := by
  have hmethod := method?_of_analyse h id
  rw [hm, Option.map_some] at hmethod
  split at hmethod
  · cases hmethod
  · obtain ⟨source, hsource, hshape⟩ := Option.map_eq_some_iff.1 hmethod.symm
    refine ⟨source, hsource, ?_, congrArg Method.pagination hshape.symm⟩
    exact congrArg ({ · with pagination := none } : Method → Method) hshape.symm

/-- A message of the raw model is one of the model that was built. -/
theorem message_of_analyse (h : raw.analyse c = .ok api) {id : String} {source : Message}
    (hsource : raw.message? id = some source) :
    ∃ m, api.message? id = some m ∧ m.shape = { source.bare with
        messages := source.messages.filter c.selection.lists
        enums := source.enums.filter c.selection.lists
        pagination := raw.foundPages c id source } := by
  have hmessage := message?_of_analyse h id
  rw [hsource, Option.map_some] at hmessage
  exact Option.map_eq_some_iff.1 hmessage

/-- Messages that declare the same fields have the same fields by name. -/
theorem field?_congr {m n : Message} (h : m.shape.fields = n.bare.fields) (name : String) :
    (m.field? name).map Field.bare = (n.field? name).map Field.bare := by
  rw [← Standard.field?_shape, ← Standard.field?_shape]
  unfold Message.field?
  rw [h]
  rfl

/-! ## Pages -/

/-- A token that a method of the model was built with was found for that method. -/
theorem foundFor_of_token (hkeyed : raw.Keyed) (hunpaged : raw.Unpaged) (h : raw.analyse c = .ok api)
    {id : String} {m : Method} (hm : api.method? id = some m) {token : String}
    (htoken : m.pagination = some token) :
    ∃ source f request response, m.bare = source.bare ∧
      FoundFor raw c.paginationOverrides f source request response ∧ f.pageToken = token := by
  obtain ⟨source, hsource, hbare, hpagination⟩ := method_of_analyse h hm
  rw [hpagination, foundToken, hunpaged.methods id source hsource] at htoken
  rcases IdMap.latest_cases Finding.methodId (some ·.pageToken)
    (findings raw c.paginationOverrides) id none with ⟨f, hf, hid, hlatest⟩ | ⟨hnone, -⟩
  · obtain ⟨other, request, response, hfound⟩ := (mem_findings_iff hkeyed).1 hf
    have hsame := hfound.method
    rw [hid, hsource] at hsame
    obtain rfl := Option.some.inj hsame
    exact ⟨source, f, request, response, hbare, hfound, Option.some.inj (hlatest.symm.trans htoken)⟩
  · cases hnone.symm.trans htoken

/-- The response of a method that something is found for has pages, of this method or of another one
with the same response. -/
theorem foundPages_of_foundFor (hkeyed : raw.Keyed) {f : Finding} {m : Method}
    {request response : Message} (h : FoundFor raw c.paginationOverrides f m request response) :
    ∃ info, raw.foundPages c m.outputTypeId response = some info ∧
      (response.field? info.nextPageToken).isSome ∧ (response.field? info.pageableItem).isSome := by
  rcases IdMap.latest_cases Finding.responseId (some ·.info) (findings raw c.paginationOverrides)
    m.outputTypeId response.pagination with ⟨g, hg, hid, hlatest⟩ | ⟨-, hnone⟩
  · obtain ⟨other, request', response', hother⟩ := (mem_findings_iff hkeyed).1 hg
    have hsame := hother.output
    rw [← hother.responseId, hid, h.output] at hsame
    obtain rfl := Option.some.inj hsame
    exact ⟨g.info, hlatest, (isSome_field?_of_shape? hother.shape).2⟩
  · have hf := (mem_findings_iff hkeyed).2 ⟨m, request, response, h⟩
    exact absurd h.responseId (hnone f hf)

/-- A method and what its pages go by. -/
structure Paged (api : Api) (m : Method) (token : String) (request response : Message)
    (info : PaginationInfo) : Prop where
  input : api.message? m.inputTypeId = some request
  output : api.message? m.outputTypeId = some response
  pages : response.pagination = some info
  pageToken : (request.field? token).isSome
  nextPageToken : (response.field? info.nextPageToken).isSome
  item : (response.field? info.pageableItem).isSome

/-- **A paginated method of the model that was built has a response with pages**, and what they name are
fields of its request and of its response. -/
theorem paged_of_analyse (hkeyed : raw.Keyed) (hunpaged : raw.Unpaged)
    (h : raw.analyse c = .ok api) {id : String} {m : Method} (hm : api.method? id = some m)
    {token : String} (htoken : m.pagination = some token) :
    ∃ request response info, api.Paged m token request response info := by
  obtain ⟨source, f, request, response, hbare, hfound, rfl⟩ :=
    foundFor_of_token hkeyed hunpaged h hm htoken
  obtain ⟨info, hinfo, hnext, hitem⟩ := foundPages_of_foundFor hkeyed hfound
  obtain ⟨q, hq, hqshape⟩ := message_of_analyse h hfound.input
  obtain ⟨r, hr, hrshape⟩ := message_of_analyse h hfound.output
  have hinput : m.bare.inputTypeId = source.bare.inputTypeId := by rw [hbare]
  have houtput : m.bare.outputTypeId = source.bare.outputTypeId := by rw [hbare]
  have hpages : r.shape.pagination = some info := by rw [hrshape, hinfo]
  have hqfields := field?_congr (m := q) (n := request) (by rw [hqshape])
  have hrfields := field?_congr (m := r) (n := response) (by rw [hrshape])
  have hsome : ∀ {x y : Option Field}, x.map Field.bare = y.map Field.bare → y.isSome → x.isSome := by
    intro x y hxy hy
    rw [← Option.isSome_map, hxy, Option.isSome_map]
    exact hy
  exact
    ⟨q, r, info,
      { input := (congrArg api.message? hinput).trans hq
        output := (congrArg api.message? houtput).trans hr
        pages := hpages
        pageToken := hsome (hqfields _) (isSome_field?_of_shape? hfound.shape).1
        nextPageToken := hsome (hrfields _) hnext
        item := hsome (hrfields _) hitem }⟩

end Api

end ApiModel
