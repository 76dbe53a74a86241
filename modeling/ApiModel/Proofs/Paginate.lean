import ApiModel.Proofs.Paged

/-!
# What pagination records

Which fields make a method page, and what a model holds behind pagination.  What is found for a method is
recorded on the method and on its response, in the order of the IDs; of several methods with one
response, the last one counts.

Principal results:

* `shape?_eq_some_iff_pageFields` — the searches find the first fields that have the properties;
* `latest_last` — of the records under an ID, the one that stays is the last;
* `paginate_spec` — **pagination records what the paging methods say**, and leaves everything else alone;
* `paginate_override` — **an overridden item stays** unless the last method that pages with the same response
  comes behind and has another item.
-/

namespace ApiModel

/-! ## The last record -/

namespace IdMap

variable {κ β : Type} {rank : κ → String} {ks : List κ}

/-- Of ranked records the last one under the ID stays. -/
theorem latest_last (key : κ → String) (value : κ → β) (hsorted : ks.Pairwise (rank · < rank ·))
    (id : String) (old : β) :
    (∃ k ∈ ks, key k = id ∧ latest key value ks id old = value k ∧
        ∀ r ∈ ks, key r = id → ¬ rank k < rank r) ∨
      (latest key value ks id old = old ∧ ∀ k ∈ ks, key k ≠ id) := by
  induction ks generalizing old with
  | nil => exact .inr ⟨rfl, by simp⟩
  | cons k rest ih =>
    rw [List.pairwise_cons] at hsorted
    obtain ⟨hfirst, hrest⟩ := hsorted
    have hstep : latest key value (k :: rest) id old =
        latest key value rest id (if id = key k then value k else old) := rfl
    rw [hstep]
    rcases ih hrest (if id = key k then value k else old) with ⟨r, hr, hkey, hlatest, hlast⟩ | ⟨hold, hnone⟩
    · refine .inl ⟨r, List.mem_cons_of_mem _ hr, hkey, hlatest, ?_⟩
      exact List.forall_mem_cons.2 ⟨fun _ => Std.not_gt_of_lt (hfirst r hr), hlast⟩
    · by_cases hid : id = key k
      · rw [if_pos hid] at hold ⊢
        refine .inl ⟨k, List.mem_cons_self .., hid.symm, hold, ?_⟩
        exact List.forall_mem_cons.2
          ⟨fun _ => Std.lt_irrefl, fun r hr hkey => absurd hkey (hnone r hr)⟩
      · rw [if_neg hid] at hold ⊢
        exact .inr ⟨hold, List.forall_mem_cons.2 ⟨Ne.symm hid, hnone⟩⟩

/-- The elements of a keyed map have ascending IDs. -/
theorem KeyedBy.pairwise_values {α : Type} {m : IdMap α} {idOf : α → String} (h : m.KeyedBy idOf) :
    m.values.Pairwise (idOf · < idOf ·) := by
  have hkeys : m.entries.Pairwise fun e f => e.1 < f.1 := List.pairwise_map.1 m.ascending
  refine List.pairwise_map.2 (hkeys.imp_of_mem fun {e f} he hf hlt => ?_)
  rwa [h e.1 e.2 (get?_eq_some_iff.2 he), h f.1 f.2 (get?_eq_some_iff.2 hf)]

end IdMap

namespace Pagination

/-! ## Fields that make messages page -/

/-- The first of the fields with a property. -/
def IsFirst (P : Field → Prop) (fields : List Field) (f : Field) : Prop :=
  ∃ before behind, fields = before ++ f :: behind ∧ P f ∧ ∀ g ∈ before, ¬ P g

def IsInteger (f : Field) : Prop := f.kind = .int32 ∨ f.kind = .uint32

/-- The field limits the size of a page, under its present name or an older one. -/
def IsPageSize (f : Field) : Prop :=
  f.jsonName = "pageSize" ∧ IsInteger f ∨
    f.jsonName = "maxResults" ∧ (IsInteger f ∨ f.kind = .message ∧
      (f.typeId = ".google.protobuf.Int32Value" ∨ f.typeId = ".google.protobuf.UInt32Value"))

/-- The field is a text under a JSON name. -/
def IsText (jsonName : String) (f : Field) : Prop := f.jsonName = jsonName ∧ f.kind = .string

/-- The field is a list of messages and no map. -/
def IsMessageList (f : Field) : Prop := f.repeated = true ∧ f.isMap = false ∧ f.kind = .message

/-- The field with the items: the one that is named, or else the first list of messages, or else the first
map. -/
def IsItem (response : Message) : Option String → Field → Prop
  | some name, f => IsFirst (·.name = name) response.fields f
  | none, f => IsFirst IsMessageList response.fields f ∨
      (∀ g ∈ response.fields, ¬ IsMessageList g) ∧ IsFirst (·.isMap = true) response.fields f

/-- The fields that make a request and a response page. -/
structure PageFields (request response : Message) (itemName : Option String)
    (token item next : Field) : Prop where
  size : ∃ f ∈ request.fields, IsPageSize f
  token : IsFirst (IsText "pageToken") request.fields token
  item : IsItem response itemName item
  next : IsFirst (IsText "nextPageToken") response.fields next

variable {api : Api} {overrides : List PaginationOverride} {fields : List Field} {p : Field → Bool}
  {P : Field → Prop} {request response : Message} {itemName : Option String}

theorem find?_eq_some_iff_isFirst (h : ∀ f, p f = true ↔ P f) (f : Field) :
    fields.find? p = some f ↔ IsFirst P fields f := by
  rw [List.find?_eq_some_iff_append]
  unfold IsFirst
  constructor
  · rintro ⟨hf, before, behind, heq, hbefore⟩
    refine ⟨before, behind, heq, (h f).1 hf, fun g hg hP => ?_⟩
    have hg' := hbefore g hg
    rw [(h g).2 hP] at hg'
    cases hg'
  · rintro ⟨before, behind, heq, hf, hbefore⟩
    refine ⟨(h f).2 hf, before, behind, heq, fun g hg => ?_⟩
    rw [Bool.not_eq_true', Bool.eq_false_iff]
    exact fun hp => hbefore g hg ((h g).1 hp)

theorem exists_isFirst {f : Field} (hf : f ∈ fields) (hP : P f) : ∃ first, IsFirst P fields first := by
  classical
  have hdecide : ∀ g, decide (P g) = true ↔ P g := fun g => decide_eq_true_iff
  have hsome : (fields.find? fun g => decide (P g)).isSome :=
    List.find?_isSome.2 ⟨f, hf, (hdecide f).2 hP⟩
  obtain ⟨first, hfirst⟩ := Option.isSome_iff_exists.1 hsome
  exact ⟨first, (find?_eq_some_iff_isFirst hdecide first).1 hfirst⟩

theorem isPageSize_iff (f : Field) : isPageSize f = true ↔ IsPageSize f := by
  have hinteger : (f.kind == .int32 || f.kind == .uint32) = true ↔ IsInteger f := by
    rw [Bool.or_eq_true, beq_iff_eq, beq_iff_eq]
    rfl
  unfold isPageSize IsPageSize
  by_cases hsize : f.jsonName = "pageSize"
  · simp [hsize, hinteger]
  · simp [hsize, hinteger, Field.isMessage, integerWrapperIds]

theorem isPageToken_iff (f : Field) : isPageToken f = true ↔ IsText "pageToken" f := by
  simp [isPageToken, IsText, Field.isString]

theorem isNextPageToken_iff (f : Field) : isNextPageToken f = true ↔ IsText "nextPageToken" f := by
  simp [isNextPageToken, IsText, Field.isString]

theorem isItemList_iff (f : Field) : isItemList f = true ↔ IsMessageList f := by
  simp [isItemList, IsMessageList, Field.isMessage, and_assoc]

theorem item_eq_some_iff (f : Field) :
    itemName.elim (itemField? response) response.field? = some f ↔ IsItem response itemName f := by
  cases itemName with
  | some name => exact find?_eq_some_iff_isFirst (fun g => beq_iff_eq) f
  | none =>
    show itemField? response = some f ↔ _
    unfold itemField? IsItem
    rw [Option.or_eq_some_iff, find?_eq_some_iff_isFirst isItemList_iff, List.find?_eq_none,
      find?_eq_some_iff_isFirst fun _ => Iff.rfl]
    simp only [isItemList_iff]

/-- **The searches find the first fields that have the properties.** -/
theorem shape?_eq_some_iff_pageFields {token : String} {info : PaginationInfo} :
    shape? request response itemName = some (token, info) ↔
      ∃ tokenField item next, PageFields request response itemName tokenField item next ∧
        token = tokenField.name ∧ info = { nextPageToken := next.name, pageableItem := item.name } := by
  have hsize : (request.fields.find? isPageSize).isSome ↔ ∃ f ∈ request.fields, IsPageSize f := by
    simp only [List.find?_isSome, isPageSize_iff]
  rw [shape?_eq_some_iff]
  constructor
  · rintro ⟨tokenField, item, next, h⟩
    obtain ⟨htoken, hinfo⟩ := Prod.mk.inj h.names
    exact ⟨tokenField, item, next,
      { size := hsize.1 h.hasSize
        token := (find?_eq_some_iff_isFirst isPageToken_iff _).1 h.isToken
        item := (item_eq_some_iff _).1 h.isItem
        next := (find?_eq_some_iff_isFirst isNextPageToken_iff _).1 h.isNext }, htoken, hinfo⟩
  · rintro ⟨tokenField, item, next, h, rfl, rfl⟩
    exact ⟨tokenField, item, next,
      { hasSize := hsize.2 h.size
        isToken := (find?_eq_some_iff_isFirst isPageToken_iff _).2 h.token
        isItem := (item_eq_some_iff _).2 h.item
        isNext := (find?_eq_some_iff_isFirst isNextPageToken_iff _).2 h.next
        names := rfl }⟩

end Pagination

namespace Api

open Pagination

variable {api : Api} {overrides : List PaginationOverride} {id : String} {m : Method} {token : String}
  {info : PaginationInfo}

/-! ## Methods that page -/

/-- The method pages: its messages are registered and have the fields. -/
def Pages (api : Api) (overrides : List PaginationOverride) (m : Method) (token : String)
    (info : PaginationInfo) : Prop :=
  ∃ request response tokenField item next,
    api.message? m.inputTypeId = some request ∧ api.message? m.outputTypeId = some response ∧
      PageFields request response (overriding? overrides m.id) tokenField item next ∧
      token = tokenField.name ∧ info = { nextPageToken := next.name, pageableItem := item.name }

/-- Of the methods that page with a response, the last one in the order of their IDs. -/
structure LastPaging (api : Api) (overrides : List PaginationOverride) (responseId : String)
    (m : Method) (token : String) (info : PaginationInfo) : Prop where
  registered : api.method? m.id = some m
  output : m.outputTypeId = responseId
  pages : api.Pages overrides m token info
  last : ∀ other token info, api.method? other.id = some other → other.outputTypeId = responseId →
    api.Pages overrides other token info → ¬ m.id < other.id

theorem pages_iff : api.Pages overrides m token info ↔
    ∃ request response, api.message? m.inputTypeId = some request ∧
      api.message? m.outputTypeId = some response ∧
      shape? request response (overriding? overrides m.id) = some (token, info) := by
  simp only [shape?_eq_some_iff_pageFields]
  constructor
  · rintro ⟨request, response, tokenField, item, next, hrequest, hresponse, hfields, hnames⟩
    exact ⟨request, response, hrequest, hresponse, tokenField, item, next, hfields, hnames⟩
  · rintro ⟨request, response, hrequest, hresponse, tokenField, item, next, hfields, hnames⟩
    exact ⟨request, response, tokenField, item, next, hrequest, hresponse, hfields, hnames⟩

/-- A method pages in one way. -/
theorem Pages.unique {other : String} {otherInfo : PaginationInfo} (h : api.Pages overrides m token info)
    (hother : api.Pages overrides m other otherInfo) : token = other ∧ info = otherInfo := by
  obtain ⟨request, response, hrequest, hresponse, hshape⟩ := pages_iff.1 h
  obtain ⟨request', response', hrequest', hresponse', hshape'⟩ := pages_iff.1 hother
  obtain rfl := Option.some.inj (hrequest.symm.trans hrequest')
  obtain rfl := Option.some.inj (hresponse.symm.trans hresponse')
  exact Prod.mk.inj (Option.some.inj (hshape.symm.trans hshape'))

/-- Only one method is the last. -/
theorem LastPaging.unique {responseId otherToken : String} {other : Method} {otherInfo : PaginationInfo}
    (h : api.LastPaging overrides responseId m token info)
    (hother : api.LastPaging overrides responseId other otherToken otherInfo) :
    other = m ∧ otherInfo = info := by
  rcases Std.lt_trichotomy m.id other.id with hlt | heq | hgt
  · exact absurd hlt (h.last other otherToken otherInfo hother.registered hother.output hother.pages)
  · have hsame := hother.registered
    rw [← heq, h.registered] at hsame
    obtain rfl := Option.some.inj hsame
    exact ⟨rfl, (hother.pages.unique h.pages).2⟩
  · exact absurd hgt (hother.last m token info h.registered h.output h.pages)

/-! ## What is found -/

/-- What is found is what the registered methods that page say. -/
theorem mem_findings_iff_pages (hkeyed : api.Keyed) {f : Finding} :
    f ∈ findings api overrides ↔ ∃ m, api.method? f.methodId = some m ∧
      f.responseId = m.outputTypeId ∧ api.Pages overrides m f.pageToken f.info := by
  rw [mem_findings_iff hkeyed]
  simp only [pages_iff]
  constructor
  · rintro ⟨m, request, response, h⟩
    exact ⟨m, h.method, h.responseId, request, response, h.input, h.output, h.shape⟩
  · rintro ⟨m, hmethod, hid, request, response, hinput, houtput, hshape⟩
    exact ⟨m, request, response, hmethod, hinput, houtput, hid, hshape⟩

/-- The findings are in the order of the methods. -/
theorem pairwise_findings (hkeyed : api.Keyed) (overrides : List PaginationOverride) :
    (findings api overrides).Pairwise (·.methodId < ·.methodId) := by
  refine List.pairwise_filterMap.2 (hkeyed.methods.pairwise_values.imp ?_)
  intro a b hlt f hf g hg
  rw [(ids_of_finding? hf).1, (ids_of_finding? hg).1]
  exact hlt

/-! ## What is recorded -/

theorem method?_paginate (id : String) : (api.paginate overrides).method? id =
    (api.method? id).map fun m => { m with
      pagination := IdMap.latest (·.methodId) (some ·.pageToken) (findings api overrides) id
        m.pagination } := by
  rw [paginate_eq_edit]
  exact IdMap.get?_map ..

theorem message?_paginate (id : String) : (api.paginate overrides).message? id =
    (api.message? id).map fun r => { r with
      pagination := IdMap.latest (·.responseId) (some ·.info) (findings api overrides) id
        r.pagination } := by
  rw [paginate_eq_edit]
  exact IdMap.get?_map ..

/-- **A method that pages gets its token**, and no other method changes. -/
theorem method?_paginate_of_method? (hkeyed : api.Keyed) (hm : api.method? id = some m) :
    (∃ token info, api.Pages overrides m token info ∧
        (api.paginate overrides).method? id = some { m with pagination := some token }) ∨
      ((∀ token info, ¬ api.Pages overrides m token info) ∧
        (api.paginate overrides).method? id = some m) := by
  rw [method?_paginate, hm, Option.map_some]
  rcases IdMap.latest_cases Finding.methodId (some ·.pageToken) (findings api overrides) id m.pagination
    with ⟨f, hf, hid, hlatest⟩ | ⟨hold, hnone⟩
  · obtain ⟨source, hsource, -, hpages⟩ := (mem_findings_iff_pages hkeyed).1 hf
    rw [hid, hm] at hsource
    obtain rfl := Option.some.inj hsource
    refine .inl ⟨f.pageToken, f.info, hpages, ?_⟩
    rw [hlatest]
  · refine .inr ⟨fun token info hpages => ?_, ?_⟩
    · have hf : (⟨id, m.outputTypeId, token, info⟩ : Finding) ∈ findings api overrides :=
        (mem_findings_iff_pages hkeyed).2 ⟨m, hm, rfl, hpages⟩
      exact hnone _ hf rfl
    · rw [hold]

/-- **A response gets what is found for the last of its methods that page**, and no other message changes. -/
theorem message?_paginate_of_message? (hkeyed : api.Keyed) (overrides : List PaginationOverride)
    {r : Message} (hr : api.message? id = some r) :
    (∃ m token info, api.LastPaging overrides id m token info ∧
        (api.paginate overrides).message? id = some { r with pagination := some info }) ∨
      ((∀ m token info, api.method? m.id = some m → m.outputTypeId = id →
          ¬ api.Pages overrides m token info) ∧
        (api.paginate overrides).message? id = some r) := by
  have hfinding : ∀ {m : Method} {token info}, api.method? m.id = some m →
      api.Pages overrides m token info →
        (⟨m.id, m.outputTypeId, token, info⟩ : Finding) ∈ findings api overrides :=
    fun {m _ _} hm hpages => (mem_findings_iff_pages hkeyed).2 ⟨m, hm, rfl, hpages⟩
  rw [message?_paginate, hr, Option.map_some]
  rcases IdMap.latest_last Finding.responseId (some ·.info) (pairwise_findings hkeyed overrides) id
    r.pagination with
    ⟨f, hf, hid, hlatest, hlast⟩ | ⟨hold, hnone⟩
  · obtain ⟨m, hm, houtput, hpages⟩ := (mem_findings_iff_pages hkeyed).1 hf
    have hmid : m.id = f.methodId := hkeyed.methods _ m hm
    refine .inl ⟨m, f.pageToken, f.info, ?_, by rw [hlatest]⟩
    refine ⟨by rw [hmid]; exact hm, houtput.symm.trans hid, hpages, ?_⟩
    intro other token info hother hsame hpages
    rw [hmid]
    exact hlast _ (hfinding hother hpages) hsame
  · refine .inr ⟨fun m token info hm houtput hpages => ?_, by rw [hold]⟩
    exact hnone _ (hfinding hm hpages) houtput

/-- **Pagination records what the methods that page say.**  A method gets the name of its request's page token, a
message what is found for the last method that pages with it, and everything else stays. -/
theorem paginate_spec (api : Api) (hkeyed : api.Keyed) (overrides : List PaginationOverride) :
    (∀ id m, api.method? id = some m →
      (∃ token info, api.Pages overrides m token info ∧
          (api.paginate overrides).method? id = some { m with pagination := some token }) ∨
        ((∀ token info, ¬ api.Pages overrides m token info) ∧
          (api.paginate overrides).method? id = some m)) ∧
      (∀ id r, api.message? id = some r →
        (∃ m token info, api.LastPaging overrides id m token info ∧
            (api.paginate overrides).message? id = some { r with pagination := some info }) ∨
          ((∀ m token info, api.method? m.id = some m → m.outputTypeId = id →
              ¬ api.Pages overrides m token info) ∧
            (api.paginate overrides).message? id = some r)) ∧
      (∀ id, api.method? id = none → (api.paginate overrides).method? id = none) ∧
      (∀ id, api.message? id = none → (api.paginate overrides).message? id = none) ∧
      { api.paginate overrides with
        registry.methods := api.registry.methods
        registry.messages := api.registry.messages } = api := by
  refine ⟨fun id m hm => method?_paginate_of_method? hkeyed hm,
    fun id r hr => message?_paginate_of_message? hkeyed overrides hr, ?_, ?_, ?_⟩
  · intro id hnone
    rw [method?_paginate, hnone, Option.map_none]
  · intro id hnone
    rw [message?_paginate, hnone, Option.map_none]
  · show { (findings api overrides).foldl record api with
      registry.methods := api.registry.methods, registry.messages := api.registry.messages } = api
    rw [foldl_record_findings]

/-- A request for a page. -/
def tableQuery : Message :=
  ((Message.new "Query" "v1" none).addField { name := "size", jsonName := "pageSize", kind := .int32 }).addField
    { name := "token", jsonName := "pageToken", kind := .string }

/-- A response with two lists that may be the items. -/
def tablePage : Message :=
  (((Message.new "Page" "v1" none).addField
    { name := "rows", jsonName := "rows", kind := .message, typeId := ".v1.Query", repeated := true }).addField
    { name := "hits", jsonName := "hits", kind := .message, typeId := ".v1.Query", repeated := true }).addField
    { name := "next", jsonName := "nextPageToken", kind := .string }

/-- One of several methods with the same messages. -/
def tableMethod (name : String) : Method := .new (.new "Table" "v1") name ".v1.Query" ".v1.Page"

/-- A table with such methods. -/
def tableOf (names : List String) : Api :=
  ((({ name := "table" } : Api).addMessage tableQuery).addMessage tablePage).addService (.new "Table" "v1")
    (names.map tableMethod)

def table : Api := tableOf ["List", "Search"]

theorem paginate_spec_table :
    table.Keyed ∧
      (table.paginate []).method? ".v1.Table.List" =
        some { tableMethod "List" with pagination := some "token" } := by
  have hkeyed : table.Keyed := by decide
  have hmethod : table.method? ".v1.Table.List" = some (tableMethod "List") := by rfl
  obtain ⟨hmethods, -⟩ := table.paginate_spec hkeyed []
  rcases hmethods _ _ hmethod with ⟨token, info, hpages, hrecorded⟩ | ⟨hnone, -⟩
  · obtain ⟨request, response, hrequest, hresponse, hshape⟩ := pages_iff.1 hpages
    obtain rfl := Option.some.inj hrequest
    obtain rfl := Option.some.inj hresponse
    obtain ⟨rfl, -⟩ := Prod.mk.inj (Option.some.inj hshape)
    exact ⟨hkeyed, hrecorded⟩
  · exact absurd (pages_iff.2 ⟨_, _, rfl, rfl, rfl⟩) (hnone "token" ⟨"next", "rows"⟩)

/-! ## Overridden items -/

/-- **An overridden item stays** on the response, unless the last method that pages with the same response comes
behind the one with the override and has another item. -/
theorem paginate_override (api : Api) (hkeyed : api.Keyed) (overrides : List PaginationOverride)
    {id name : String} {m : Method} {request response : Message} {size token item next : Field}
    (hm : api.method? id = some m) (hrequest : api.message? m.inputTypeId = some request)
    (hresponse : api.message? m.outputTypeId = some response)
    (hoverride : overriding? overrides m.id = some name) (hitem : response.field? name = some item)
    (hsize : size ∈ request.fields ∧ IsPageSize size)
    (htoken : token ∈ request.fields ∧ IsText "pageToken" token)
    (hnext : next ∈ response.fields ∧ IsText "nextPageToken" next)
    (hbehind : ∀ last token info, api.LastPaging overrides m.outputTypeId last token info →
      m.id < last.id → info.pageableItem = name) :
    ∃ r info, (api.paginate overrides).message? m.outputTypeId = some r ∧ r.pagination = some info ∧
      info.pageableItem = name := by
  have hid : m.id = id := hkeyed.methods id m hm
  obtain ⟨token, info, hpages, hnamed⟩ :
      ∃ token info, api.Pages overrides m token info ∧ info.pageableItem = name := by
    obtain ⟨firstToken, hfirstToken⟩ := exists_isFirst htoken.1 htoken.2
    obtain ⟨firstNext, hfirstNext⟩ := exists_isFirst hnext.1 hnext.2
    refine ⟨firstToken.name, ⟨firstNext.name, item.name⟩, ⟨request, response, firstToken, item, firstNext,
      hrequest, hresponse, ?_, rfl, rfl⟩, Message.name_of_field? hitem⟩
    rw [hoverride]
    exact ⟨⟨size, hsize⟩, hfirstToken, (item_eq_some_iff item).1 hitem, hfirstNext⟩
  rcases message?_paginate_of_message? hkeyed overrides hresponse with
    ⟨last, lastToken, lastInfo, hlast, hmessage⟩ | ⟨hnone, -⟩
  · refine ⟨_, lastInfo, hmessage, rfl, ?_⟩
    rcases Std.lt_trichotomy m.id last.id with hlt | heq | hgt
    · exact hbehind last lastToken lastInfo hlast hlt
    · have hsame : api.method? last.id = some m := by rw [← heq, hid, hm]
      obtain rfl := Option.some.inj (hlast.registered.symm.trans hsame)
      obtain ⟨-, rfl⟩ := hpages.unique hlast.pages
      exact hnamed
    · have hregistered : api.method? m.id = some m := by rw [hid, hm]
      exact absurd hgt (hlast.last m token info hregistered rfl hpages)
  · exact absurd hpages (hnone m token info (by rw [hid, hm]) rfl)

/-- Overrides for two methods, with one item. -/
def hitsOverrides : List PaginationOverride := [⟨".v1.Table.List", "hits"⟩, ⟨".v1.Table.Search", "hits"⟩]

/-- A table with a method between the two. -/
def longTable : Api := tableOf ["List", "Read", "Search"]

/-- The first and the last of three methods have one item; what the one between them says does not matter. -/
theorem paginate_override_table :
    longTable.Keyed ∧
      overriding? hitsOverrides ".v1.Table.List" = some "hits" ∧
      longTable.Pages hitsOverrides (tableMethod "Read") "token"
        { nextPageToken := "next", pageableItem := "rows" } ∧
      (∃ last token info, longTable.LastPaging hitsOverrides ".v1.Page" last token info ∧
        ".v1.Table.List" < last.id) ∧
      ∃ r info, (longTable.paginate hitsOverrides).message? ".v1.Page" = some r ∧
        r.pagination = some info ∧ info.pageableItem = "hits" := by
  have hkeyed : longTable.Keyed := by decide
  have hsearch : longTable.LastPaging hitsOverrides ".v1.Page" (tableMethod "Search") "token"
      { nextPageToken := "next", pageableItem := "hits" } := by
    have hnone : ∀ m ∈ longTable.registry.methods.values, ¬ ".v1.Table.Search" < m.id := by decide
    exact ⟨rfl, rfl, pages_iff.2 ⟨_, _, rfl, rfl, rfl⟩,
      fun other _ _ hother _ _ => hnone other (IdMap.mem_values_iff.2 ⟨_, hother⟩)⟩
  have hmethod : longTable.method? ".v1.Table.List" = some (tableMethod "List") := rfl
  have hrequest : longTable.message? ".v1.Query" = some tableQuery := rfl
  have hresponse : longTable.message? ".v1.Page" = some tablePage := rfl
  refine ⟨hkeyed, rfl, pages_iff.2 ⟨_, _, rfl, rfl, rfl⟩, ⟨_, _, _, hsearch, by decide⟩, ?_⟩
  refine Api.paginate_override _ hkeyed hitsOverrides hmethod hrequest hresponse rfl rfl
    ⟨List.mem_cons_self .., .inl ⟨rfl, .inl rfl⟩⟩
    ⟨List.mem_cons_of_mem _ (List.mem_cons_self ..), rfl, rfl⟩
    ⟨List.mem_cons_of_mem _ (List.mem_cons_of_mem _ (List.mem_cons_self ..)), rfl, rfl⟩ ?_
  intro last token info hlast _
  obtain ⟨-, rfl⟩ := hsearch.unique hlast
  rfl

/-- An override for each of the methods, with an item of its own. -/
def tableOverrides : List PaginationOverride := [⟨".v1.Table.List", "rows"⟩, ⟨".v1.Table.Search", "hits"⟩]

/-- The override for one method is lost on the response of both. -/
theorem not_paginate_override_table :
    table.Keyed ∧ table.method? ".v1.Table.List" = some (tableMethod "List") ∧
      table.message? (tableMethod "List").inputTypeId = some tableQuery ∧
      table.message? (tableMethod "List").outputTypeId = some tablePage ∧
      overriding? tableOverrides (tableMethod "List").id = some "rows" ∧
      (tablePage.field? "rows").isSome ∧ (∃ f ∈ tableQuery.fields, IsPageSize f) ∧
      (∃ f ∈ tableQuery.fields, IsText "pageToken" f) ∧
      (∃ f ∈ tablePage.fields, IsText "nextPageToken" f) ∧
      ∃ r, (table.paginate tableOverrides).message? (tableMethod "List").outputTypeId = some r ∧
        r.pagination = some { nextPageToken := "next", pageableItem := "hits" } := by
  refine ⟨by decide, rfl, rfl, rfl, rfl, rfl, ?_, ?_, ?_, _, rfl, rfl⟩
  · exact ⟨_, List.mem_cons_self .., .inl ⟨rfl, .inl rfl⟩⟩
  · exact ⟨_, List.mem_cons_of_mem _ (List.mem_cons_self ..), rfl, rfl⟩
  · exact ⟨_, List.mem_cons_of_mem _ (List.mem_cons_of_mem _ (List.mem_cons_self ..)), rfl, rfl⟩

end Api

end ApiModel
