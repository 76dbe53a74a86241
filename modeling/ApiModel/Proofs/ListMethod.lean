import ApiModel.Proofs.Standard.Subject
import ApiModel.Proofs.View

/-!
# List methods

A method that is named and shaped as one that lists resources page by page is built as one.  The first
cross-referencing classifies it before its pages are known; pagination then marks the method and its
response, and only the second cross-referencing sees both.

Principal results:

* `pages_of_lists` — the pages of such a method and of its response, if nobody else returns it;
* `listMethod_of_createModel` — **it is a list method, keyed on the field that names the parent**.
-/

namespace ApiModel

open ApiModel.Text

/-! ## Recognising a list method -/

namespace Standard

/-- The parent field goes by what is declared. -/
theorem parentField?_congr {m n : Message} (h : m.shape.fields = n.bare.fields) (kind : String) :
    (parentField? m kind).map (·.name) = (parentField? n kind).map (·.name) := by
  have hbare : (parentField? m kind).map Field.bare = (parentField? n kind).map Field.bare := by
    rw [← parentField?_shape, ← parentField?_shape]
    unfold parentField? Message.field?
    rw [h]
    rfl
  have hname : ∀ x : Option Field, (x.map Field.bare).map (·.name) = x.map (·.name) := by
    intro x
    cases x <;> rfl
  rw [← hname, hbare, hname]

/-- What a list method is keyed on, by its names and by the resource that its items carry. -/
theorem listField?_eq {api : Api} {m : Method} {t : Traits} {request response : Message}
    {subject : List Char} {info : PaginationInfo} {item : Field} {resource : Resource}
    (ht : t.isList = true) (hsubject : subject ≠ [])
    (hmethodName : sameLetters m.name.toList ("list".toList ++ subject) = true)
    (hinput : api.message? m.inputTypeId = some request)
    (hrequestName : named request.name "list" subject "request" = true)
    (houtput : api.message? m.outputTypeId = some response)
    (hresponseName : named response.name "list" subject "response" = true)
    (hpages : response.pagination = some info)
    (hitem : response.field? info.pageableItem = some item)
    (hresource : (api.message? item.typeId).bind (·.resource) = some resource) :
    listField? api m t = (parentField? request resource.kind).map (·.name) := by
  obtain ⟨own, hown, hletters⟩ := afterVerb?_of_sameLetters hmethodName hsubject
  obtain ⟨hgiven, hmethod⟩ := afterVerb?_eq_some_iff.1 hown
  have hrequest : named request.name "list" own "request" = true := by
    rw [named_congr hletters, hrequestName]
  have hsubject : subject? "list" m request = some own :=
    subject?_eq_some_iff.2 ⟨hgiven, hmethod, hrequest⟩
  obtain ⟨content, hcontent, hresource⟩ := Option.bind_eq_some_iff.1 hresource
  unfold listField?
  rw [ht, hinput, houtput]
  simp only [guard, if_true, Option.pure_def, Option.bind_eq_bind, Option.bind_some, hsubject,
    named_congr hletters, hresponseName, hpages, hitem, hcontent, hresource]
  exact Option.map_eq_bind.symm

end Standard

/-- Where names are distinct, a field is found by its own. -/
theorem Message.field?_of_mem {m : Message} (hnodup : (m.fields.map (·.name)).Nodup) {f : Field}
    (h : f ∈ m.fields) : m.field? f.name = some f := by
  obtain ⟨front, back, hsplit⟩ := List.append_of_mem h
  refine List.find?_eq_some_iff_append.2 ⟨by simp, front, back, hsplit, fun g hg => ?_⟩
  rw [hsplit, List.map_append, List.map_cons] at hnodup
  have hne := (List.nodup_append.1 hnodup).2.2 g.name (List.mem_map_of_mem hg) f.name (by simp)
  simpa using hne

namespace Api

open Pagination Standard

variable {c : Config} {raw api : Api} {id : String} {m : Method} {subject : List Char}
  {request response : Message} {token item : Field} {resource : Resource}

/-- The fields of each message have distinct names. -/
def FieldsNamed (api : Api) : Prop :=
  ∀ id m, api.message? id = some m → (m.fields.map (·.name)).Nodup

instance (api : Api) : Decidable api.FieldsNamed :=
  inferInstanceAs (Decidable (∀ id m, api.registry.messages.get? id = some m →
    (m.fields.map (·.name)).Nodup))

/-- A method that is declared as one that lists resources page by page, with a response of its own. -/
structure Lists (api : Api) (id : String) (m : Method) (subject : List Char)
    (request response : Message) (token item : Field) (resource : Resource) : Prop where
  method : api.method? id = some m
  subjectGiven : subject ≠ []
  methodName : sameLetters m.name.toList ("list".toList ++ subject) = true
  input : api.message? m.inputTypeId = some request
  requestName : sameLetters request.name.toList ("list".toList ++ subject ++ "request".toList) = true
  pageSize : (request.fields.find? isPageSize).isSome
  pageToken : request.fields.find? isPageToken = some token
  output : api.message? m.outputTypeId = some response
  responseName :
    sameLetters response.name.toList ("list".toList ++ subject ++ "response".toList) = true
  nextPageToken : (response.fields.find? isNextPageToken).isSome
  items : response.fields.find? isItemList = some item
  carries : (api.message? item.typeId).bind (·.resource) = some resource
  alone : ∀ k n, api.method? k = some n → n.outputTypeId = m.outputTypeId → k = id

/-! ## Pages -/

/-- What is found for the method, apart from the name of the next token. -/
theorem shape?_of_lists (h : raw.Lists id m subject request response token item resource) :
    ∃ next, shape? request response none =
      some (token.name, { nextPageToken := next, pageableItem := item.name }) := by
  obtain ⟨next, hnext⟩ := Option.isSome_iff_exists.1 h.nextPageToken
  have hitem : itemField? response = some item := by
    unfold itemField?
    rw [h.items]
    rfl
  exact ⟨next.name,
    shape?_eq_some_iff.2 ⟨token, item, next, h.pageSize, h.pageToken, hitem, hnext, rfl⟩⟩

/-- The pages of the method and of its response, where no override names the item field. -/
theorem pages_of_lists (hkeyed : raw.Keyed) (hoverrides : c.paginationOverrides = [])
    (h : raw.Lists id m subject request response token item resource) :
    raw.foundToken c id m = some token.name ∧
      ∃ next, raw.foundPages c m.outputTypeId response =
        some { nextPageToken := next, pageableItem := item.name } := by
  obtain ⟨next, hshape⟩ := shape?_of_lists h
  -- no other method has a finding under the ID of the method or of its response
  have hown : ∀ f ∈ findings raw [], f.methodId = id →
      f.pageToken = token.name ∧ f.info = { nextPageToken := next, pageableItem := item.name } := by
    intro f hf hid
    obtain ⟨n, q, r, hfound⟩ := (mem_findings_iff hkeyed).1 hf
    have hmethod := hfound.method
    rw [hid, h.method] at hmethod
    obtain rfl := Option.some.inj hmethod
    obtain rfl := Option.some.inj (h.input.symm.trans hfound.input)
    obtain rfl := Option.some.inj (h.output.symm.trans hfound.output)
    exact Prod.mk.inj (Option.some.inj (hfound.shape.symm.trans hshape))
  have hresponse : ∀ f ∈ findings raw [], f.responseId = m.outputTypeId → f.methodId = id := by
    intro f hf hid
    obtain ⟨n, q, r, hfound⟩ := (mem_findings_iff hkeyed).1 hf
    exact h.alone _ n hfound.method (hfound.responseId.symm.trans hid)
  have hmem : ⟨id, m.outputTypeId, token.name,
      { nextPageToken := next, pageableItem := item.name }⟩ ∈ findings raw [] :=
    (mem_findings_iff hkeyed).2 ⟨m, request, response, h.method, h.input, h.output, rfl, hshape⟩
  unfold foundToken foundPages
  rw [hoverrides]
  refine ⟨IdMap.latest_eq _ ⟨_, hmem, rfl⟩ fun f hf hid => ?_, next,
    IdMap.latest_eq _ ⟨_, hmem, rfl⟩ fun f hf hid => ?_⟩
  · rw [(hown f hf hid).1]
  · rw [(hown f hf (hresponse f hf hid)).2]

/-! ## The method that is built -/

/-- Where nothing is skipped or included, every method of the raw model is built. -/
theorem exists_method_of_analyse (hskipped : c.skippedIds = []) (hincluded : c.includedIds = [])
    (h : raw.analyse c = .ok api) (hm : raw.method? id = some m) :
    ∃ built, api.method? id = some built ∧
      built.shape = { m.bare with pagination := raw.foundToken c id m } := by
  have hmethod := method?_of_analyse h id
  have hselected : (raw.preselected c).SelectedBy c.selection :=
    selectedBy_of_nil hskipped hincluded _
  rw [droppedMethods_eq_nil hselected, hm] at hmethod
  exact Option.map_eq_some_iff.1 hmethod

/-- The method lists items of a resource type: its page token, its item field and its parent field. -/
structure ListMethod (api : Api) (m : Method) (request : Message) (token item : Field)
    (resource : Resource) : Prop where
  pageToken : m.pagination = some token.name
  isList : m.traits.isList = true
  isSimple : m.traits.isSimple = false
  item : ∃ f, api.pageItemField? m = some f ∧ f.bare = item.bare
  parent : m.traits.standard.list =
    ((request.fields.find? (·.resourceReference.any (·.childKind == resource.kind))).or
      (request.fields.find? (·.name == "parent"))).map (·.name)

/-- The response that is built has the item field, with items that carry the resource. -/
theorem response_of_analyse (hnamed : raw.FieldsNamed) (hanalyse : raw.analyse c = .ok api)
    (h : raw.Lists id m subject request response token item resource) :
    ∃ r, api.message? m.outputTypeId = some r ∧ r.name = response.name ∧
      r.pagination = raw.foundPages c m.outputTypeId response ∧
      ∃ f, r.field? item.name = some f ∧ f.bare = item.bare ∧
        (api.message? f.typeId).bind (·.resource) = some resource := by
  obtain ⟨r, hr, hshape⟩ := message_of_analyse hanalyse h.output
  obtain ⟨content, hcontent, hresource⟩ := Option.bind_eq_some_iff.1 h.carries
  obtain ⟨t, ht, htshape⟩ := message_of_analyse hanalyse hcontent
  refine ⟨r, hr, (congrArg Message.name hshape :), (congrArg Message.pagination hshape :), ?_⟩
  have hfields : r.shape.fields = response.bare.fields := by rw [hshape]
  have hitem := Message.field?_of_mem (hnamed _ response h.output) (List.mem_of_find?_eq_some h.items)
  have hsame := field?_congr hfields item.name
  rw [hitem] at hsame
  obtain ⟨f, hf, hfbare⟩ := Option.map_eq_some_iff.1 hsame
  refine ⟨f, hf, hfbare, ?_⟩
  rw [show f.typeId = item.typeId from (congrArg Field.typeId hfbare :), ht]
  exact (congrArg Message.resource htshape :).trans hresource

/-- **A method that is declared as one that lists resources is built as one**, where no configuration
filters or overrides it: its standard list fields are set if and only if its request has a field that names
the parent, and then to the first one that refers to a parent of the resource, else to the one named
`parent`. -/
theorem listMethod_of_createModel {ε : Type} (hoverrides : c.paginationOverrides = [])
    (hskipped : c.skippedIds = []) (hincluded : c.includedIds = []) (hkeyed : raw.Keyed)
    (hnamed : raw.FieldsNamed) (hcreate : createModel c (.ok raw : Except ε Api) = .ok api)
    (h : raw.Lists id m subject request response token item resource) :
    ∃ built, api.method? id = some built ∧
      api.ListMethod built request token item resource := by
  obtain ⟨source, hsource, hanalyse⟩ := createModel_eq_ok_iff.1 hcreate
  obtain rfl := Except.ok.inj hsource
  obtain ⟨built, hbuilt, hshape⟩ := exists_method_of_analyse hskipped hincluded hanalyse h.method
  obtain ⟨q, hq, hqshape⟩ := message_of_analyse hanalyse h.input
  obtain ⟨r, hr, hrname, hrfound, f, hf, hfbare, hcarries⟩ := response_of_analyse hnamed hanalyse h
  obtain ⟨htoken, next, hpages⟩ := pages_of_lists (c := c) hkeyed hoverrides h
  have hname : built.name = m.name := (congrArg Method.name hshape :)
  have htoken : built.pagination = some token.name :=
    (congrArg Method.pagination hshape :).trans htoken
  have hrpages : r.pagination = some ⟨next, item.name⟩ := hrfound.trans hpages
  have hinput : api.message? built.inputTypeId = some q := by
    rw [show built.inputTypeId = m.inputTypeId from (congrArg Method.inputTypeId hshape :)]
    exact hq
  have houtput : api.message? built.outputTypeId = some r := by
    rw [show built.outputTypeId = m.outputTypeId from (congrArg Method.outputTypeId hshape :)]
    exact hr
  -- what the second cross-referencing has seen
  have hsettled := settled_of_analyse hanalyse
  have hlinked : built.Linked := (linked_of_settled hsettled).methods id built hbuilt
  have htraits := traits_of_settled (keyed_of_analyse hkeyed hanalyse) hsettled hbuilt
  obtain ⟨hlist, hsimple⟩ := flags_of_pages htoken houtput hrpages
  have hrequestName : named q.name "list" subject "request" = true := by
    rw [show q.name = request.name from (congrArg Message.name hqshape :)]
    exact h.requestName
  have hresponseName : named r.name "list" subject "response" = true := by
    rw [hrname]
    exact h.responseName
  have hlistField : listField? api built (built.flags api) =
      (parentField? q resource.kind).map (·.name) :=
    listField?_eq hlist h.subjectGiven (hname ▸ h.methodName) hinput hrequestName houtput
      hresponseName hrpages hf hcarries
  have hqfields : q.shape.fields = request.bare.fields := by rw [hqshape]
  refine ⟨built, hbuilt, htoken, by rw [htraits, hlist], by rw [htraits, hsimple], ⟨f, ?_, hfbare⟩, ?_⟩
  · exact pageItemField?_of_pages hlinked houtput hrpages hf
  · rw [htraits]
    exact hlistField.trans (parentField?_congr hqfields resource.kind)

/-! ## A library -/

def bookPages : Field :=
  { name := "page_token", jsonName := "pageToken", id := ".v1.ListBooksRequest.page_token"
    kind := .string }

def shelfBooks : Field :=
  { name := "books", jsonName := "books", id := ".v1.ListBooksResponse.books", kind := .message
    typeId := ".v1.Book", repeated := true }

def listBooksRequest : Message :=
  { name := "ListBooksRequest", id := ".v1.ListBooksRequest", package := "v1"
    fields := [
      { name := "parent", jsonName := "parent", id := ".v1.ListBooksRequest.parent", kind := .string },
      { name := "shelf", jsonName := "shelf", id := ".v1.ListBooksRequest.shelf", kind := .string
        resourceReference := some { childKind := "library/Book" } },
      { name := "page_size", jsonName := "pageSize", id := ".v1.ListBooksRequest.page_size"
        kind := .int32 },
      bookPages] }

def listBooksResponse : Message :=
  { name := "ListBooksResponse", id := ".v1.ListBooksResponse", package := "v1"
    fields := [shelfBooks,
      { name := "next_page_token", jsonName := "nextPageToken"
        id := ".v1.ListBooksResponse.next_page_token", kind := .string }] }

def listBooks : Method :=
  .new (.new "Library" "v1") "ListBooks" ".v1.ListBooksRequest" ".v1.ListBooksResponse"

/-- A library that lists its books page by page, in every parent or on a shelf. -/
def shelves : Api :=
  (((({ name := "library" } : Api).addDependencyMessage
    { name := "Book", id := ".v1.Book", package := "v1", resource := some { kind := "library/Book" } }
    ).addDependencyMessage listBooksRequest).addDependencyMessage listBooksResponse).addService
      (.new "Library" "v1") [listBooks]

theorem lists_shelves :
    shelves.Lists ".v1.Library.ListBooks" listBooks "Books".toList listBooksRequest listBooksResponse
      bookPages shelfBooks { kind := "library/Book" } where
  method := rfl
  subjectGiven := by decide
  methodName := by decide
  input := rfl
  requestName := by decide
  pageSize := by decide
  pageToken := rfl
  output := rfl
  responseName := by decide
  nextPageToken := by decide
  items := rfl
  carries := rfl
  alone k n hn _ := congrArg Prod.fst (List.mem_singleton.1 (IdMap.get?_eq_some_iff.1 hn))

theorem listMethod_of_createModel_shelves :
    shelves.Keyed ∧ shelves.FieldsNamed ∧ shelves.Unpaged ∧
      shelves.Lists ".v1.Library.ListBooks" listBooks "Books".toList listBooksRequest
        listBooksResponse bookPages shelfBooks { kind := "library/Book" } ∧
      ∃ api, createModel plainConfig (.ok shelves : Except Unit Api) = .ok api ∧
        ∃ built, api.method? ".v1.Library.ListBooks" = some built ∧
          api.ListMethod built listBooksRequest bookPages shelfBooks { kind := "library/Book" } ∧
          built.traits.standard.list = some "shelf" := by
  have hkeyed : shelves.Keyed := by decide
  have hnamed : shelves.FieldsNamed := by decide
  obtain ⟨api, hcreate⟩ :
      ∃ api, createModel plainConfig (.ok shelves : Except Unit Api) = .ok api := ⟨_, rfl⟩
  obtain ⟨built, hbuilt, hlist⟩ :=
    listMethod_of_createModel rfl rfl rfl hkeyed hnamed hcreate lists_shelves
  exact ⟨hkeyed, hnamed, by decide, lists_shelves, api, hcreate, built, hbuilt, hlist, hlist.parent⟩

end Api

end ApiModel
