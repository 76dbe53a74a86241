import ApiModel.Proofs.Closed
import ApiModel.Proofs.Independence.Sketch
import ApiModel.Proofs.Stable

/-!
# Skipping a method

A method that a configuration skips leaves the model before anything is shown, but not before the model is
linked and paginated.  What it may leave behind are the pages on its response.

Principal results:

* `sketch_eq_of_settled` — settled models that offer the same have the same sketch;
* `view_eq_of_skipping` — **skipping a method and removing it beforehand give the same view**, if skipping
  it takes nothing else along and no method that stays returns a message on which it leaves other pages.
-/

namespace ApiModel

/-- A linked method as its sketch, by its surface and its traits. -/
theorem Method.sketch_of_linked {m : Method} (h : m.Linked) :
    m.sketch = { m.unlinked with
      links := { inputType := some m.unlinked.inputTypeId
                 outputType := some m.unlinked.outputTypeId }
      traits := m.traits } := by
  unfold sketch
  rw [h.input, h.output]
  rfl

namespace Api

variable {c : Config} {raw api other a b : Api} {id : String} {seen : String → Bool}

/-! ## Settled models -/

/-- In settled models the sketch of a method goes by its surface and by what its traits see. -/
theorem sketch_eq_of_unlinked (hother : other.Settled) (hapi : api.Settled)
    (hotherKeyed : other.Keyed) (hapiKeyed : api.Keyed)
    (hblurred : other.blurred seen = api.blurred seen) {m n : Method}
    (hm : other.method? id = some m) (hn : api.method? id = some n)
    (hunlinked : m.unlinked = n.unlinked) (hseen : seen n.outputTypeId = true) :
    m.sketch = n.sketch := by
  have houtput : m.unlinked.outputTypeId = n.unlinked.outputTypeId := by rw [hunlinked]
  have hseen' : seen m.outputTypeId = true := by
    show seen m.unlinked.outputTypeId = true
    rw [houtput]
    exact hseen
  have hshape : m.shape = n.shape := by
    rw [← m.shape_unlinked, hunlinked, n.shape_unlinked]
  have htraits : m.traits = n.traits := by
    rw [traits_of_settled hotherKeyed hother hm, traits_of_settled hapiKeyed hapi hn,
      ← Method.classify_blurred other hseen', ← Method.classify_blurred api hseen, hblurred]
    exact Method.classify_congr hshape rfl
  rw [Method.sketch_of_linked ((linked_of_settled hother).methods id m hm),
    Method.sketch_of_linked ((linked_of_settled hapi).methods id n hn), hunlinked, htraits]

/-- Settled models have the same sketch if they offer the same, have the same types, and hold the same
pages on the responses of their methods. -/
theorem sketch_eq_of_settled (hother : other.Settled) (hapi : api.Settled)
    (hotherKeyed : other.Keyed) (hapiKeyed : api.Keyed) (hsurface : other.surface = api.surface)
    (htypes : other.types = api.types)
    (hpages : ∀ id, seen id = true → other.pages.get? id = api.pages.get? id)
    (hseen : ∀ id m, api.method? id = some m → seen m.outputTypeId = true) :
    other.sketch seen = api.sketch seen := by
  have hblurred : other.blurred seen = api.blurred seen :=
    blurred_congr htypes hpages (congrArg (fun api => api.registry.resources) hsurface)
  have hmethods : (other.registry.methods.map fun _ => Method.sketch) =
      api.registry.methods.map fun _ => Method.sketch := by
    refine IdMap.map_eq_of_map_eq (congrArg (fun api => api.registry.methods) hsurface) ?_
    intro id m n hm hn hunlinked
    exact sketch_eq_of_unlinked hother hapi hotherKeyed hapiKeyed hblurred hm hn hunlinked
      (hseen id n hn)
  have henums : other.types.enums = api.types.enums := by rw [htypes]
  have hmessages := messages_blurred_congr htypes hpages
  have hsketch : ∀ api : Api, api.sketch seen = { api.surface with
      registry.messages := api.registry.messages.map (Message.blurred seen)
      registry.enums := api.types.enums
      registry.methods := api.registry.methods.map fun _ => Method.sketch } := fun _ => rfl
  rw [hsketch, hsketch, hsurface, hmessages, henums, hmethods]

/-! ## The analyses behind cross-referencing -/

/-- Models with the same sketch are built with the same sketch. -/
theorem sketch_applyOverrides_congr {found found' : Api} (h : other.sketch seen = api.sketch seen)
    (hother : (other.overrideDocumentations c.documentationOverrides).state.identifyTargets =
      .ok found)
    (hapi : (api.overrideDocumentations c.documentationOverrides).state.identifyTargets =
      .ok found') :
    (found.applyOverrides c).sketch seen = (found'.applyOverrides c).sketch seen := by
  have hdocumented :
      (other.overrideDocumentations c.documentationOverrides).state.sketch seen =
        (api.overrideDocumentations c.documentationOverrides).state.sketch seen := by
    have hdocs : (other.sketch seen).overrideDocumentations c.documentationOverrides = _ :=
      overrideDocumentations_sketch other _
    rw [h, overrideDocumentations_sketch] at hdocs
    exact (congrArg Outcome.state hdocs).symm
  have hfound : found.sketch seen = found'.sketch seen := by
    have htargets : ((other.overrideDocumentations c.documentationOverrides).state.sketch
        seen).identifyTargets = _ := identifyTargets_sketch _
    rw [hdocumented, identifyTargets_sketch, hother, hapi] at htargets
    exact (Except.ok.inj htargets).symm
  rw [applyOverrides_sketch, applyOverrides_sketch, hfound]

/-- Models with the same sketch have the same view, if the sketch has the pages of all responses. -/
theorem view_eq_of_sketch (h : a.sketch seen = b.sketch seen) (hlinked : b.Linked)
    (hseen : ∀ k m, b.method? k = some m → seen m.outputTypeId = true) : a.view = b.view := by
  have hresponse : ∀ k m, b.method? k = some m →
      ∀ out, m.links.outputType = some out → seen out = true := by
    intro k m hm out hout
    rw [(hlinked.methods k m hm).output] at hout
    obtain rfl := Option.some.inj hout
    exact hseen k m hm
  have hshown : (a.sketch seen).view = a.view := by
    refine view_sketch a fun k m hm out hout => ?_
    obtain ⟨n, hn, hsame⟩ :=
      IdMap.exists_of_map_eq (congrArg (fun api => api.registry.methods) h.symm) hm
    have hlinks : n.sketch.links.outputType = m.sketch.links.outputType := by rw [hsame]
    exact hresponse k n hn out (hlinks.trans hout)
  rw [← hshown, h, view_sketch b hresponse]

/-! ## Skipping -/

/-- A method can be skipped without a trace: skipping it takes no other element along, and the responses
of the methods that stay hold the pages that are found without it. -/
structure Separable (raw : Api) (c : Config) (id : String) : Prop extends
    raw.Detaches c.selection id where
  pages : ∀ k m, ((raw.withoutMethod id).applySelection c.selection).method? k = some m →
    (raw.paginate c.paginationOverrides).pages.get? m.outputTypeId =
      ((raw.withoutMethod id).paginate c.paginationOverrides).pages.get? m.outputTypeId

theorem keyed_withoutMethod (h : raw.Keyed) (id : String) : (raw.withoutMethod id).Keyed where
  messages := h.messages
  enums := h.enums
  services := (IdMap.keyedBy_map fun _ => rfl).2 h.services
  methods := h.methods.filter _
  resources := h.resources

/-- The model that is selected and cross-referenced is keyed as the raw model. -/
theorem keyed_selected (h : raw.Keyed) (c : Config) :
    (raw.selected c).crossReference.state.Keyed := by
  rw [← keyed_declared, declared_crossReference, declared_selected]
  exact keyed_applySelection (keyed_declared.2 h) _

/-- Only on its own response can a method leave a trace: it is enough that the pages there are those that are
found without it, if a method that stays has the same response. -/
theorem Detaches.separable (h : raw.Detaches c.selection id) (hkeyed : raw.Keyed)
    (hown : ∀ k m n, ((raw.withoutMethod id).applySelection c.selection).method? k = some m →
      raw.method? id = some n → n.outputTypeId = m.outputTypeId →
      (raw.paginate c.paginationOverrides).pages.get? n.outputTypeId =
        ((raw.withoutMethod id).paginate c.paginationOverrides).pages.get? n.outputTypeId) :
    raw.Separable c id where
  toDetaches := h
  pages k m hm := by
    by_cases hshared : ∃ n, raw.method? id = some n ∧ n.outputTypeId = m.outputTypeId
    · obtain ⟨n, hn, hsame⟩ := hshared
      rw [← hsame]
      exact hown k m n hm hn hsame
    · exact (pages_withoutMethod hkeyed _ fun n hn hsame => hshared ⟨n, hn, hsame⟩).symm

/-- The pages of a message are those that are found without the method. -/
def samePages (raw : Api) (c : Config) (id responseId : String) : Bool :=
  (raw.paginate c.paginationOverrides).pages.get? responseId =
    ((raw.withoutMethod id).paginate c.paginationOverrides).pages.get? responseId

/-- What is built of the model without the method has methods only whose responses keep their pages. -/
theorem Separable.samePages (h : raw.Separable c id)
    (hdeclared : api.declared = (raw.withoutMethod id).declared.applySelection c.selection)
    {k : String} {m : Method} (hm : api.method? k = some m) :
    raw.samePages c id m.outputTypeId = true := by
  rw [← declared_applySelection] at hdeclared
  obtain ⟨n, hn, hbare⟩ :=
    IdMap.exists_of_map_eq (congrArg (fun api => api.registry.methods) hdeclared.symm) hm
  have houtput : n.bare.outputTypeId = m.bare.outputTypeId := by rw [hbare]
  show raw.samePages c id m.bare.outputTypeId = true
  rw [← houtput]
  exact decide_eq_true (h.pages k n hn)

/-- Skipping a method leaves the sketch of the model without it, where cross-referencing meets no
defect. -/
theorem sketch_selected_skipping (hkeyed : raw.Keyed) (h : raw.Separable c id)
    (hfirst : raw.crossReference.defect = none)
    (hsecond : (raw.selected (c.skipping id)).crossReference.defect = none)
    (hfirst' : (raw.withoutMethod id).crossReference.defect = none)
    (hsecond' : ((raw.withoutMethod id).selected c).crossReference.defect = none) :
    (raw.selected (c.skipping id)).crossReference.state.sketch (raw.samePages c id) =
      ((raw.withoutMethod id).selected c).crossReference.state.sketch (raw.samePages c id) := by
  refine sketch_eq_of_settled (settled_of_crossReference hsecond)
    (settled_of_crossReference hsecond') (keyed_selected hkeyed _)
    (keyed_selected (keyed_withoutMethod hkeyed id) _) ?_ ?_ ?_ ?_
  · rw [surface_crossReference, surface_crossReference]
    exact surface_selected_skipping hkeyed h.toDetaches
  · exact types_crossReference_congr (types_selected_congr rfl hfirst hfirst') hsecond hsecond'
  · intro r hr
    rw [pages_selected, pages_selected]
    exact of_decide_eq_true hr
  · intro k m hm
    refine h.samePages ?_ hm
    rw [declared_crossReference, declared_selected]

/-- **Skipping a method and removing it beforehand give the same view**, if the method can be skipped
without a trace. -/
theorem view_eq_of_skipping {ε : Type} (hkeyed : raw.Keyed) (h : raw.Separable c id)
    (ha : createModel (c.skipping id) (.ok raw : Except ε Api) = .ok a)
    (hb : createModel c (.ok (raw.withoutMethod id) : Except ε Api) = .ok b) : a.view = b.view := by
  obtain ⟨_, hraw, ha⟩ := createModel_eq_ok_iff.1 ha
  obtain rfl := Except.ok.inj hraw
  obtain ⟨_, hraw, hb⟩ := createModel_eq_ok_iff.1 hb
  obtain rfl := Except.ok.inj hraw
  have hlinked := linked_of_settled (settled_of_analyse hb)
  have hseen : ∀ k m, b.method? k = some m → raw.samePages c id m.outputTypeId = true :=
    fun _ _ => h.samePages (declared_of_analyse hb)
  obtain ⟨hfirst, hsecond, -, -, found, hfound, rfl⟩ := analyse_eq_ok_iff.1 ha
  obtain ⟨hfirst', hsecond', -, -, found', hfound', rfl⟩ := analyse_eq_ok_iff.1 hb
  have hselected := sketch_selected_skipping hkeyed h hfirst hsecond hfirst' hsecond'
  have hsketch := sketch_applyOverrides_congr (c := c) hselected hfound hfound'
  exact view_eq_of_sketch hsketch hlinked hseen

end Api

/-! ## A catalog -/

/-- The methods of each service that a view shows, each with whether it lists. -/
def ApiView.outline (v : ApiView) : List (List (String × Bool)) :=
  v.services.map fun s => s.methods.map fun m => (m.id, m.isList)

namespace Api

/-- A catalog that lists its books page by page, and answers requests of another kind. -/
def catalogOf (request answer : String) : Api :=
  ((((({ name := "catalog" } : Api).addDependencyMessage
    { name := "Book", id := ".v1.Book", package := "v1" }).addDependencyMessage
    { name := "Query", id := ".v1.Query", package := "v1"
      fields := [{ name := "text", jsonName := "text", id := ".v1.Query.text", kind := .string }] }
    ).addDependencyMessage
    { name := "Range", id := ".v1.Range", package := "v1"
      fields := [
        { name := "page_size", jsonName := "pageSize", id := ".v1.Range.page_size", kind := .int32 },
        { name := "page_token", jsonName := "pageToken", id := ".v1.Range.page_token"
          kind := .string }] }).addDependencyMessage
    { name := "Page", id := ".v1.Page", package := "v1"
      fields := [
        { name := "books", jsonName := "books", id := ".v1.Page.books", kind := .message
          typeId := ".v1.Book", repeated := true },
        { name := "next_page_token", jsonName := "nextPageToken"
          id := ".v1.Page.next_page_token", kind := .string }] }).addService
    (.new "Catalog" "v1") [.new (.new "Catalog" "v1") "Find" request answer,
      .new (.new "Catalog" "v1") "List" ".v1.Range" ".v1.Page"]

/-- A catalog that finds some of its books by a text. -/
def catalog (answer : String) : Api := catalogOf ".v1.Query" answer

/-- A catalog with two methods that page, with the same messages. -/
def pagedCatalog : Api := catalogOf ".v1.Range" ".v1.Page"

/-- The pages that either of the methods finds on the response that they share. -/
def catalogPages : PaginationInfo := { nextPageToken := "next_page_token", pageableItem := "books" }

theorem pages_pagedCatalog :
    (pagedCatalog.paginate plainConfig.paginationOverrides).pages.get? ".v1.Page" = some (some catalogPages) ∧
      ((pagedCatalog.withoutMethod ".v1.Catalog.List").paginate
        plainConfig.paginationOverrides).pages.get? ".v1.Page" = some (some catalogPages) :=
  ⟨rfl, rfl⟩

theorem separable_pagedCatalog : pagedCatalog.Separable plainConfig ".v1.Catalog.List" := by
  have hdetaches : pagedCatalog.Detaches plainConfig.selection ".v1.Catalog.List" :=
    ⟨⟨".v1.Catalog", _, rfl, by decide⟩, by decide, fun _ _ _ _ _ h => nomatch h⟩
  refine hdetaches.separable (by decide) fun _ _ n _ hn _ => ?_
  have hown : n.outputTypeId = ".v1.Page" := congrArg Method.outputTypeId (Option.some.inj hn).symm
  rw [hown, pages_pagedCatalog.1, pages_pagedCatalog.2]

/-- Both methods page with the response of the one that stays. -/
theorem view_eq_of_skipping_catalog :
    pagedCatalog.Keyed ∧ pagedCatalog.Separable plainConfig ".v1.Catalog.List" ∧
      pagedCatalog.registry.methods.values.map (·.outputTypeId) = [".v1.Page", ".v1.Page"] ∧
      (pagedCatalog.paginate plainConfig.paginationOverrides).pages.get? ".v1.Page" =
        some (some catalogPages) ∧
      ∃ a b, createModel (plainConfig.skipping ".v1.Catalog.List")
          (.ok pagedCatalog : Except Unit Api) = .ok a ∧
        createModel plainConfig
          (.ok (pagedCatalog.withoutMethod ".v1.Catalog.List") : Except Unit Api) = .ok b ∧
        a.view.outline = [[(".v1.Catalog.Find", true)]] ∧ a.view = b.view := by
  have hkeyed : pagedCatalog.Keyed := by decide
  obtain ⟨a, ha, houtline⟩ : ∃ a, createModel (plainConfig.skipping ".v1.Catalog.List")
      (.ok pagedCatalog : Except Unit Api) = .ok a ∧
        a.view.outline = [[(".v1.Catalog.Find", true)]] := ⟨_, rfl, rfl⟩
  obtain ⟨b, hb⟩ : ∃ b, createModel plainConfig
      (.ok (pagedCatalog.withoutMethod ".v1.Catalog.List") : Except Unit Api) = .ok b := ⟨_, rfl⟩
  exact ⟨hkeyed, separable_pagedCatalog, rfl, pages_pagedCatalog.1, a, b, ha, hb, houtline,
    view_eq_of_skipping hkeyed separable_pagedCatalog ha hb⟩

/-! ## Traces -/

/-- One service lists the method and no other, and yet its being skipped shows: the view is not the one
of the model without the method. -/
def LeavesTrace (c : Config) (raw : Api) (serviceId methodId : String) : Prop :=
  raw.Keyed ∧ (∃ s, raw.service? serviceId = some s ∧ methodId ∈ s.methods) ∧
    raw.OnlyListedBy serviceId methodId ∧
    ∃ a b, createModel (c.skipping methodId) (.ok raw : Except Unit Api) = .ok a ∧
      createModel c (.ok (raw.withoutMethod methodId) : Except Unit Api) = .ok b ∧ a.view ≠ b.view

theorem onlyListedBy_catalog (answer methodId : String) :
    (catalog answer).OnlyListedBy ".v1.Catalog" methodId := by
  intro i s hs _
  exact congrArg Prod.fst (List.mem_singleton.1 (IdMap.get?_eq_some_iff.1 hs))

/-- Views show a trace by their methods. -/
theorem leavesTrace_of_outline {c : Config} {raw : Api} {serviceId methodId : String}
    (skipped removed : List (List (String × Bool))) (hkeyed : raw.Keyed)
    (hlisted : ∃ s, raw.service? serviceId = some s ∧ methodId ∈ s.methods)
    (honly : raw.OnlyListedBy serviceId methodId)
    (hskipped : ∃ a, createModel (c.skipping methodId) (.ok raw : Except Unit Api) = .ok a ∧
      a.view.outline = skipped)
    (hremoved : ∃ b, createModel c (.ok (raw.withoutMethod methodId) : Except Unit Api) = .ok b ∧
      b.view.outline = removed)
    (hne : skipped ≠ removed) : LeavesTrace c raw serviceId methodId := by
  obtain ⟨a, ha, hskipped⟩ := hskipped
  obtain ⟨b, hb, hremoved⟩ := hremoved
  refine ⟨hkeyed, hlisted, honly, a, b, ha, hb, fun hview => hne ?_⟩
  rw [← hskipped, ← hremoved, hview]

/-- The response that both methods share stays marked as a page, which makes a list method of the other. -/
theorem leavesTrace_page :
    LeavesTrace plainConfig (catalog ".v1.Page") ".v1.Catalog" ".v1.Catalog.List" :=
  leavesTrace_of_outline [[(".v1.Catalog.Find", true)]] [[(".v1.Catalog.Find", false)]] (by decide)
    ⟨_, rfl, by decide⟩ (onlyListedBy_catalog _ _) ⟨_, rfl, rfl⟩ ⟨_, rfl, rfl⟩ (by decide)

/-- A configuration that includes a service and one of its methods. -/
def includingConfig : Config :=
  { plainConfig with includedIds := [".v1.Catalog", ".v1.Catalog.Find"] }

/-- A method that is included and skipped takes along the methods that are not included. -/
theorem leavesTrace_included :
    LeavesTrace includingConfig (catalog ".v1.Book") ".v1.Catalog" ".v1.Catalog.Find" :=
  leavesTrace_of_outline [[]] [[(".v1.Catalog.List", true)]] (by decide)
    ⟨_, rfl, by decide⟩ (onlyListedBy_catalog _ _) ⟨_, rfl, rfl⟩ ⟨_, rfl, rfl⟩ (by decide)

/-- The catalog with a service that goes by the ID of a method. -/
def crowdedCatalog : Api := (catalog ".v1.Book").addService (.new "Find" "v1.Catalog") []

theorem onlyListedBy_crowdedCatalog (methodId : String) :
    crowdedCatalog.OnlyListedBy ".v1.Catalog" methodId := by
  intro i s hs hlisted
  rcases List.mem_pair.1 (IdMap.get?_eq_some_iff.1 hs) with hfirst | hsecond
  · exact congrArg Prod.fst hfirst
  · rw [show s = _ from congrArg Prod.snd hsecond] at hlisted
    exact nomatch hlisted

/-- A method that is skipped takes along the service that goes by its ID. -/
theorem leavesTrace_crowdedCatalog :
    LeavesTrace plainConfig crowdedCatalog ".v1.Catalog" ".v1.Catalog.Find" :=
  leavesTrace_of_outline [[(".v1.Catalog.List", true)]] [[(".v1.Catalog.List", true)], []]
    (by decide) ⟨_, rfl, by decide⟩ (onlyListedBy_crowdedCatalog _) ⟨_, rfl, rfl⟩ ⟨_, rfl, rfl⟩
    (by decide)

/-- A skipped method can show in three ways. -/
theorem leavesTrace_catalog :
    LeavesTrace plainConfig (catalog ".v1.Page") ".v1.Catalog" ".v1.Catalog.List" ∧
      LeavesTrace includingConfig (catalog ".v1.Book") ".v1.Catalog" ".v1.Catalog.Find" ∧
      LeavesTrace plainConfig crowdedCatalog ".v1.Catalog" ".v1.Catalog.Find" :=
  ⟨leavesTrace_page, leavesTrace_included, leavesTrace_crowdedCatalog⟩

end Api

end ApiModel
