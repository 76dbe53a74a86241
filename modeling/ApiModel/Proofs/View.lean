import ApiModel.Proofs.Independence.SkippedMethod
import ApiModel.Proofs.Paged
import ApiModel.View

/-!
# What the view shows

The view looks everything up by ID and by name, and shows nothing where a lookup fails.  In a model that
was built every one of its lookups succeeds: links and pages are in place, and what is listed is registered.

Principal results:

* `paginationView?_of_paged` — the view of a method whose pages go by registered fields;
* `showsMethods_of_valid` — a valid model shows what it lists, one by one;
* `view_of_createModel` — **the view of a model that was built drops nothing**.
-/

namespace ApiModel

/-- Where every lookup succeeds, what is found goes with what it was looked up by, one by one. -/
theorem forall₂_map_filterMap {α β γ : Type} {f : α → Option β} {as : List α} (g : β → γ)
    (h : ∀ a ∈ as, ∃ b, f a = some b) :
    List.Forall₂ (fun a c => ∃ b, f a = some b ∧ c = g b) as ((as.filterMap f).map g) := by
  induction as with
  | nil => exact .nil
  | cons a rest ih =>
    obtain ⟨⟨b, hb⟩, hrest⟩ := List.forall_mem_cons.1 h
    rw [List.filterMap_cons, hb, List.map_cons]
    exact .cons ⟨b, hb, rfl⟩ (ih hrest)

namespace Api

variable {c : Config} {raw api : Api} {m : Method} {token : String}

/-! ## Pages -/

/-- The view names the page token, and fields of the registered request and response. -/
structure ShowsPages (api : Api) (m : Method) (token : String) (p : PaginationView) : Prop where
  pageToken : p.pageToken = token
  input : ∃ request, api.message? m.inputTypeId = some request ∧ (request.field? p.pageToken).isSome
  output : ∃ response, api.message? m.outputTypeId = some response ∧
    (response.field? p.nextPageToken).isSome ∧ (response.field? p.item).isSome

/-- What the view says of the pages of a method. -/
structure ShowsPagination (api : Api) (m : Method) : Prop where
  paginated : ∀ token, m.pagination = some token →
    m.traits.isList = true ∧ m.traits.isSimple = false ∧
      ∃ p, (api.methodView m).pagination = some p ∧ api.ShowsPages m token p
  plain : m.pagination = none → (api.methodView m).pagination = none

theorem input?_of_linked (h : m.Linked) : api.input? m = api.message? m.inputTypeId := by
  unfold input?
  rw [h.input]
  rfl

theorem output?_of_linked (h : m.Linked) : api.output? m = api.message? m.outputTypeId := by
  unfold output?
  rw [h.output]
  rfl

/-- The item field of a method is found in the pages of its response. -/
theorem pageItemField?_of_pages {response : Message} {info : PaginationInfo} {item : Field}
    (hlinked : m.Linked) (hresponse : api.message? m.outputTypeId = some response)
    (hpages : response.pagination = some info)
    (hitem : response.field? info.pageableItem = some item) : api.pageItemField? m = some item := by
  unfold pageItemField?
  rw [output?_of_linked hlinked, hresponse]
  show (response.pagination.bind fun info => response.field? info.pageableItem) = some item
  rw [hpages]
  exact hitem

theorem paginationView?_of_paged {request response : Message} {info : PaginationInfo}
    (hlinked : m.Linked) (htoken : m.pagination = some token)
    (h : api.Paged m token request response info) :
    ∃ p, api.paginationView? m = some p ∧ api.ShowsPages m token p := by
  obtain ⟨f, hf⟩ := Option.isSome_iff_exists.1 h.pageToken
  obtain ⟨item, hitem⟩ := Option.isSome_iff_exists.1 h.item
  have hftoken : f.name = token := Message.name_of_field? hf
  have hitemName : item.name = info.pageableItem := Message.name_of_field? hitem
  have htokenField : api.pageTokenField? m = some f := by
    unfold pageTokenField?
    rw [input?_of_linked hlinked, h.input, htoken]
    exact hf
  have hitemField := pageItemField?_of_pages hlinked h.output h.pages hitem
  refine ⟨⟨f.name, info.nextPageToken, item.name, item.typeText⟩, ?_, hftoken, ?_, ?_⟩
  · unfold paginationView?
    rw [htokenField, output?_of_linked hlinked, h.output, hitemField]
    show (response.pagination.bind fun info => _) = _
    rw [h.pages]
    rfl
  · refine ⟨request, h.input, ?_⟩
    rw [hftoken]
    exact h.pageToken
  · refine ⟨response, h.output, h.nextPageToken, ?_⟩
    rw [hitemName]
    exact h.item

theorem paginationView?_eq_none (h : m.pagination = none) : api.paginationView? m = none := by
  have hfield : api.pageTokenField? m = none := by
    unfold pageTokenField?
    rw [h]
    cases api.input? m <;> rfl
  unfold paginationView?
  rw [hfield]
  rfl

/-- A method with a token and with pages on its response is a list method and no simple one. -/
theorem flags_of_pages {response : Message} {info : PaginationInfo}
    (htoken : m.pagination = some token) (hresponse : api.message? m.outputTypeId = some response)
    (hpages : response.pagination = some info) :
    (m.classify api).isList = true ∧ (m.classify api).isSimple = false := by
  constructor
  · show (api.message? m.outputTypeId).any (·.pagination.isSome) = true
    rw [hresponse, Option.any_some, hpages]
    rfl
  · show (m.pagination.isNone && _ && _ && _) = false
    rw [htoken]
    rfl

theorem showsPagination_of_analyse (hkeyed : raw.Keyed) (hunpaged : raw.Unpaged)
    (h : raw.analyse c = .ok api) {id : String} (hm : api.method? id = some m) :
    api.ShowsPagination m := by
  have hsettled := settled_of_analyse h
  have hlinked : m.Linked := (linked_of_settled hsettled).methods id m hm
  have htraits := traits_of_settled (keyed_of_analyse hkeyed h) hsettled hm
  refine ⟨fun token htoken => ?_, paginationView?_eq_none⟩
  obtain ⟨request, response, info, hpaged⟩ := paged_of_analyse hkeyed hunpaged h hm htoken
  obtain ⟨hlist, hsimple⟩ := flags_of_pages htoken hpaged.output hpaged.pages
  rw [htraits]
  exact ⟨hlist, hsimple, paginationView?_of_paged hlinked htoken hpaged⟩

/-! ## Services and methods -/

/-- The view of a method is that of the registered method. -/
def ShowsMethod (api : Api) (id : String) (v : MethodView) : Prop :=
  ∃ m, api.method? id = some m ∧ v = api.methodView m

/-- The view of a service is that of the registered service, with a view of each method that it lists, in
order. -/
def ShowsService (api : Api) (id : String) (v : ServiceView) : Prop :=
  ∃ s, api.service? id = some s ∧ v = api.serviceView s ∧
    List.Forall₂ api.ShowsMethod s.methods v.methods

theorem showsService_of_serviceFits {id : String} (h : api.ServiceFits id) :
    ∃ s, api.service? id = some s ∧ api.ShowsService id (api.serviceView s) := by
  obtain ⟨s, hs, -, hmethods⟩ := h
  refine ⟨s, hs, s, hs, rfl, ?_⟩
  refine forall₂_map_filterMap api.methodView fun id hid => ?_
  exact Option.isSome_iff_exists.1 (hmethods id hid)

/-- A valid model shows what it lists, one by one. -/
theorem showsServices_of_valid (h : api.Valid) :
    List.Forall₂ api.ShowsService api.services api.view.services := by
  have hfound : ∀ id ∈ api.services, ∃ s, api.service? id = some s := by
    intro id hid
    obtain ⟨s, hs, -⟩ := h.services id hid
    exact ⟨s, hs⟩
  have hviews := forall₂_map_filterMap api.serviceView hfound
  refine ((List.forall₂_and_left _ _).2 ⟨fun id hid => hid, hviews⟩).imp ?_
  rintro id v ⟨hid, s, hs, rfl⟩
  obtain ⟨t, ht, hshows⟩ := showsService_of_serviceFits (h.services id hid)
  obtain rfl := Option.some.inj (hs.symm.trans ht)
  exact hshows

/-- **The view of a model that was built drops nothing**: a paginated method is a list method with a view
of its pages, and every listed service and method has its view, in order. -/
theorem view_of_createModel {ε : Type} (hkeyed : raw.Keyed) (hunpaged : raw.Unpaged)
    (h : createModel c (.ok raw : Except ε Api) = .ok api) :
    (∀ id m, api.method? id = some m → api.ShowsPagination m) ∧
      List.Forall₂ api.ShowsService api.services api.view.services := by
  obtain ⟨source, hsource, hanalyse⟩ := createModel_eq_ok_iff.1 h
  obtain rfl := Except.ok.inj hsource
  exact ⟨fun _ _ hm => showsPagination_of_analyse hkeyed hunpaged hanalyse hm,
    showsServices_of_valid (valid_of_analyse hanalyse)⟩

/-- The services of a view, each method with the token that it pages by. -/
def tokensShown (v : ApiView) : List (List (String × Option String)) :=
  v.services.map fun s => s.methods.map fun m => (m.name, m.pagination.map (·.pageToken))

theorem view_of_createModel_catalog :
    (catalog ".v1.Page").Keyed ∧ (catalog ".v1.Page").Unpaged ∧
      ∃ api, createModel plainConfig (.ok (catalog ".v1.Page") : Except Unit Api) = .ok api ∧
        tokensShown api.view = [[("Find", none), ("List", some "page_token")]] ∧
        (∀ id m, api.method? id = some m → api.ShowsPagination m) ∧
        List.Forall₂ api.ShowsService api.services api.view.services := by
  have hkeyed : (catalog ".v1.Page").Keyed := by decide
  have hunpaged : (catalog ".v1.Page").Unpaged := by decide
  obtain ⟨api, hcreate, htokens⟩ :
      ∃ api, createModel plainConfig (.ok (catalog ".v1.Page") : Except Unit Api) = .ok api ∧
        tokensShown api.view = [[("Find", none), ("List", some "page_token")]] := ⟨_, rfl, rfl⟩
  exact ⟨hkeyed, hunpaged, api, hcreate, htokens, view_of_createModel hkeyed hunpaged hcreate⟩

end Api

end ApiModel
