import ApiModel.Proofs.Manifest.Layout
import ApiModel.Proofs.Target.Host
import ApiModel.Proofs.Yaml.PlainValue

/-!
# Reading a manifest back

The values that a manifest shows, read from its text by the core schema.

Principal results:

* `Api.manifest_faithful` — **a manifest is read back to what it shows** if the names and verbs that it writes
  without quotes can be written so, which is decided value by value;
* `standsForItself_iff_of_isIdentifier` — identifiers can, apart from the few reserved words;
* `Api.ofManifest?_of_isIdentifier` — so the manifest of a model with other identifiers is read back.
-/

namespace ApiModel

open Yaml

/-! ## What is shown -/

/-- Without a template nothing of a target is shown. -/
def BindingView.shown (b : BindingView) : BindingView :=
  { b with
    targetTemplate := shownText b.targetTemplate
    targetFields := (shownText b.targetTemplate).elim [] fun _ => b.targetFields }

/-- The documentation of a method and its deprecation are not shown. -/
def MethodView.shown (m : MethodView) : MethodView :=
  { m with
    documentation := "", deprecated := false
    body := shownText m.body
    bindings := m.bindings.map (·.shown) }

/-- The documentation of a service is not shown. -/
def ServiceView.shown (s : ServiceView) : ServiceView :=
  { s with documentation := "", methods := s.methods.map (·.shown) }

/-- The part of a view that a manifest shows. -/
def ApiView.shown (v : ApiView) : ApiView := { v with services := v.services.map (·.shown) }

/-! ## Readers -/

def targetOfNode? (n : Node) : Option (String × List String) := do
  let members ← n.members?
  return (← memberOr none Node.text? members "template",
    ← memberOr none (Node.list? Node.text?) members "fields")

def BindingView.ofNode? (n : Node) : Option BindingView := do
  let members ← n.members?
  let target ← optionalMember targetOfNode? members "target_resource"
  return {
    verb := ← memberOr none Node.text? members "verb"
    path := ← memberOr none Node.text? members "path"
    queryParameters := ← memberOr (some []) (Node.list? Node.text?) members "query"
    targetTemplate := target.map (·.1)
    targetFields := target.elim [] (·.2) }

def PaginationView.ofNode? (n : Node) : Option PaginationView := do
  let members ← n.members?
  let text := memberOr none Node.text? members
  return { pageToken := ← text "page_token", nextPageToken := ← text "next_page_token",
           item := ← text "item", itemType := ← text "item_type" }

def OperationView.ofNode? (n : Node) : Option OperationView := do
  let members ← n.members?
  let text := memberOr none Node.text? members
  return { responseType := ← text "response", metadataType := ← text "metadata" }

def MethodView.ofNode? (n : Node) : Option MethodView := do
  let members ← n.members?
  let text := memberOr none Node.text? members
  let flag := memberOr none Node.flag? members
  let kind ← optionalMember Node.text? members "standard"
  let field ← optionalMember Node.text? members "standard_field"
  return {
    name := ← text "name", id := ← text "id", documentation := "", deprecated := false
    inputType := ← text "input", outputType := ← text "output"
    body := ← optionalMember Node.text? members "body"
    bindings := ← memberOr (some []) (Node.list? BindingView.ofNode?) members "bindings"
    isSimple := ← flag "simple", isLro := ← flag "lro", isList := ← flag "list"
    isStreaming := ← flag "streaming"
    standard := do return ⟨← kind, ← field⟩
    pagination := ← optionalMember PaginationView.ofNode? members "pagination"
    operation := ← optionalMember OperationView.ofNode? members "operation" }

def ServiceView.ofNode? (n : Node) : Option ServiceView := do
  let members ← n.members?
  let text := memberOr none Node.text? members
  return {
    name := ← text "name", id := ← text "id", documentation := "", defaultHost := ← text "host"
    deprecated := ← memberOr (some false) Node.flag? members "deprecated"
    methods := ← memberOr none (Node.list? MethodView.ofNode?) members "methods" }

def ResourceView.ofNode? (n : Node) : Option ResourceView := do
  let members ← n.members?
  let text := memberOr none Node.text? members
  return {
    kind := ← text "type", singular := ← text "singular", plural := ← text "plural"
    patterns := ← memberOr none (Node.list? Node.text?) members "patterns" }

def ApiView.ofNode? (n : Node) : Option ApiView := do
  let members ← n.members?
  let text := memberOr none Node.text? members
  return {
    name := ← text "name", title := ← text "title", package := ← text "package"
    description := ← memberOr (some "") Node.text? members "description"
    services := ← memberOr none (Node.list? ServiceView.ofNode?) members "services"
    resources := ← memberOr (some []) (Node.list? ResourceView.ofNode?) members "resources" }

/-- Reads a manifest. -/
def ApiView.ofManifest? (s : String) : Option ApiView := do
  ApiView.ofNode? (← (← Document.ofText? s).root)

/-! ## Texts -/

/-- The values of a method that are written without quotes, except the standard kind. -/
def MethodView.plainTexts (m : MethodView) : List String :=
  m.name :: (m.standard.elim [] (fun s => [s.field]) ++
    (m.pagination.elim [] (fun p => [p.pageToken, p.nextPageToken, p.item]) ++ m.bindings.map (·.verb)))

/-- The values that are written without quotes, except the standard kinds. -/
def ApiView.plainTexts (v : ApiView) : List String :=
  v.services.flatMap fun s => s.name :: s.methods.flatMap (·.plainTexts)

/-- The standard kinds of the methods. -/
def ApiView.kinds (v : ApiView) : List String :=
  v.services.flatMap fun s => s.methods.filterMap fun m => m.standard.map (·.kind)

def BindingView.quotedTexts (b : BindingView) : List String :=
  b.path :: (b.queryParameters ++ (b.targetTemplate.toList ++ b.targetFields))

def MethodView.quotedTexts (m : MethodView) : List String :=
  [m.id, m.inputType, m.outputType] ++ (m.body.toList ++
    (m.pagination.elim [] (fun p => [p.itemType]) ++
      (m.operation.elim [] (fun o => [o.responseType, o.metadataType]) ++
        m.bindings.flatMap (·.quotedTexts))))

def ServiceView.quotedTexts (s : ServiceView) : List String :=
  [s.id, s.defaultHost] ++ s.methods.flatMap (·.quotedTexts)

def ResourceView.quotedTexts (r : ResourceView) : List String :=
  [r.kind, r.singular, r.plural] ++ r.patterns

/-- The values that are written between quotes. -/
def ApiView.quotedTexts (v : ApiView) : List String :=
  [v.name, v.title, v.package, v.description] ++ (v.services.flatMap (·.quotedTexts) ++
    v.resources.flatMap (·.quotedTexts))

/-! ## Blocks -/

@[simp]
theorem written_plainBlock {s : String} : (plainBlock s).Written ↔ isPlainForm s.toList = true := Iff.rfl

@[simp]
theorem written_quotedBlock {s : String} : (quotedBlock s).Written ↔ Quotable s.toList := Iff.rfl

@[simp]
theorem written_listBlock {ss : List String} :
    (listBlock ss).Written ↔ ∀ s ∈ ss, Quotable s.toList := Iff.rfl

@[simp]
theorem written_flagBlock (b : Bool) : (flagBlock b).Written := by
  have htrue : isPlainForm "true".toList = true := by decide
  have hfalse : isPlainForm "false".toList = true := by decide
  cases b <;> assumption

theorem forall_mem_unlessEmpty {α : Type} {xs : List α} {block : Block} :
    (∀ b ∈ unlessEmpty xs block, b.Written) ↔ (xs ≠ [] → block.Written) := by
  unfold unlessEmpty
  cases xs <;> simp

theorem forall_mem_map {α : Type} {o : Option α} {f : α → Block} :
    (∀ b ∈ o.map f, b.Written) ↔ ∀ a ∈ o, (f a).Written := by
  cases o <;> simp

theorem mem_shownText {s : Option String} {t : String} (h : t ∈ shownText s) : t ∈ s :=
  (Option.mem_filter_iff.1 h).1

/-! ## Bindings -/

namespace BindingView

variable {b : BindingView}

theorem written_target (h : ∀ s ∈ b.quotedTexts, Quotable s.toList) {t : String}
    (ht : t ∈ shownText b.targetTemplate) : Block.EntriesWritten (present (b.targetFields' t)) := by
  have ht := mem_shownText ht
  refine written_present (b.targetFields' t) ?_ ?_
  · show ∀ key ∈ ["template", "fields"], IsKey key
    decide +kernel
  · have htemplate : Quotable t.toList := h t (by simp_all [quotedTexts])
    have hfields : ∀ f ∈ b.targetFields, Quotable f.toList := fun f hf => h f (by simp [quotedTexts, hf])
    simpa [targetFields'] using ⟨htemplate, hfields⟩

theorem written_fields (hplain : IsPlainText b.verb) (h : ∀ s ∈ b.quotedTexts, Quotable s.toList) :
    Block.EntriesWritten (present b.fields) := by
  refine written_present b.fields ?_ ?_
  · show ∀ key ∈ ["verb", "path", "query", "target_resource"], IsKey key
    decide +kernel
  · have hpath : Quotable b.path.toList := h b.path (by simp [quotedTexts])
    have hquery : ∀ q ∈ b.queryParameters, Quotable q.toList := fun q hq => h q (by simp [quotedTexts, hq])
    have htarget : ∀ t ∈ shownText b.targetTemplate, (Block.mapping (present (b.targetFields' t))).Written :=
      fun t ht => ⟨by simp [targetFields'], written_target h ht⟩
    simp only [fields, List.forall_mem_cons, Option.mem_some, forall_eq', forall_mem_map,
      forall_mem_unlessEmpty, written_plainBlock, written_quotedBlock, written_listBlock]
    exact ⟨hplain.1, hpath, fun _ => hquery, htarget, by simp⟩

theorem targetOfNode?_fields (h : ∀ s ∈ b.quotedTexts, Quotable s.toList) {t : String}
    (ht : t ∈ shownText b.targetTemplate) :
    targetOfNode? (Block.mapping (present (b.targetFields' t))).node = some (t, b.targetFields) := by
  have hnodup : ((b.targetFields' t).map (·.1)).Nodup := by
    show ["template", "fields"].Nodup
    decide
  have htemplate := member_present none hnodup "template" rfl (Node.text?_quoted t)
  have hfields := member_present none hnodup "fields" rfl (Node.texts?_list b.targetFields)
  unfold targetOfNode?
  rw [members?_present (written_target h ht)]
  simp [htemplate, hfields]

/-- **A binding is read back** to what is shown of it. -/
theorem ofNode?_fields (hplain : IsPlainText b.verb) (h : ∀ s ∈ b.quotedTexts, Quotable s.toList) :
    ofNode? (Block.mapping (present b.fields)).node = some b.shown := by
  have hnodup : (b.fields.map (·.1)).Nodup := by
    show ["verb", "path", "query", "target_resource"].Nodup
    decide
  have hverb := member_present none hnodup "verb" rfl (Node.text?_plain hplain.2)
  have hpath := member_present none hnodup "path" rfl (Node.text?_quoted b.path)
  have hquery := listMember_present hnodup "query" rfl (Node.texts?_list b.queryParameters) id
  have htarget := optionalMember_present hnodup "target_resource" rfl
    fun t ht => targetOfNode?_fields h ht
  unfold ofNode?
  rw [members?_present (written_fields hplain h)]
  simp only [hverb, hpath, hquery, htarget, Option.bind_eq_bind, Option.bind_some]
  unfold shown
  cases shownText b.targetTemplate <;> rfl

end BindingView

/-! ## Methods -/

theorem PaginationView.written_fields {p : PaginationView}
    (hplain : ∀ s ∈ [p.pageToken, p.nextPageToken, p.item], IsPlainText s) (h : Quotable p.itemType.toList) :
    Block.EntriesWritten (present p.fields) := by
  refine written_present p.fields ?_ ?_
  · show ∀ key ∈ ["page_token", "next_page_token", "item", "item_type"], IsKey key
    decide +kernel
  · have htoken := (hplain p.pageToken (by simp)).1
    have hnext := (hplain p.nextPageToken (by simp)).1
    have hitem := (hplain p.item (by simp)).1
    simpa [fields] using ⟨htoken, hnext, hitem, h⟩

theorem PaginationView.ofNode?_fields {p : PaginationView}
    (hplain : ∀ s ∈ [p.pageToken, p.nextPageToken, p.item], IsPlainText s) (h : Quotable p.itemType.toList) :
    ofNode? (Block.mapping (present p.fields)).node = some p := by
  have hnodup : (p.fields.map (·.1)).Nodup := by
    show ["page_token", "next_page_token", "item", "item_type"].Nodup
    decide
  have htoken := member_present none hnodup "page_token" rfl
    (Node.text?_plain (hplain p.pageToken (by simp)).2)
  have hnext := member_present none hnodup "next_page_token" rfl
    (Node.text?_plain (hplain p.nextPageToken (by simp)).2)
  have hitem := member_present none hnodup "item" rfl
    (Node.text?_plain (hplain p.item (by simp)).2)
  have htype := member_present none hnodup "item_type" rfl
    (Node.text?_quoted p.itemType)
  unfold ofNode?
  rw [members?_present (written_fields hplain h)]
  simp only [htoken, hnext, hitem, htype, Option.bind_eq_bind, Option.bind_some]
  rfl

theorem OperationView.written_fields {o : OperationView}
    (h : ∀ s ∈ [o.responseType, o.metadataType], Quotable s.toList) :
    Block.EntriesWritten (present o.fields) := by
  refine written_present o.fields ?_ ?_
  · show ∀ key ∈ ["response", "metadata"], IsKey key
    decide +kernel
  · simpa [fields] using h

theorem OperationView.ofNode?_fields {o : OperationView}
    (h : ∀ s ∈ [o.responseType, o.metadataType], Quotable s.toList) :
    ofNode? (Block.mapping (present o.fields)).node = some o := by
  have hnodup : (o.fields.map (·.1)).Nodup := by
    show ["response", "metadata"].Nodup
    decide
  have hresponse := member_present none hnodup "response" rfl
    (Node.text?_quoted o.responseType)
  have hmetadata := member_present none hnodup "metadata" rfl
    (Node.text?_quoted o.metadataType)
  unfold ofNode?
  rw [members?_present (written_fields h)]
  simp only [hresponse, hmetadata, Option.bind_eq_bind, Option.bind_some]
  rfl

namespace MethodView

variable {m : MethodView}

/-- The values that a method writes can be written. -/
structure Printable (m : MethodView) : Prop where
  kind : ∀ s ∈ m.standard, IsPlainText s.kind
  plain : ∀ s ∈ m.plainTexts, IsPlainText s
  quoted : ∀ s ∈ m.quotedTexts, Quotable s.toList

namespace Printable

theorem standard (h : m.Printable) {s : StandardView} (hs : m.standard = some s) :
    IsPlainText s.kind ∧ IsPlainText s.field :=
  ⟨h.kind s hs, h.plain s.field (by simp [plainTexts, hs])⟩

theorem pagination (h : m.Printable) {p : PaginationView} (hp : m.pagination = some p) :
    (∀ s ∈ [p.pageToken, p.nextPageToken, p.item], IsPlainText s) ∧ Quotable p.itemType.toList :=
  ⟨fun s hs => h.plain s (by
      simp only [plainTexts, hp, Option.elim_some, List.mem_cons, List.mem_append] at hs ⊢
      exact .inr (.inr (.inl hs))),
    h.quoted p.itemType (by simp [quotedTexts, hp])⟩

theorem operation (h : m.Printable) {o : OperationView} (ho : m.operation = some o) :
    ∀ s ∈ [o.responseType, o.metadataType], Quotable s.toList :=
  fun s hs => h.quoted s (by
    simp only [quotedTexts, ho, Option.elim_some, List.mem_append] at hs ⊢
    exact .inr (.inr (.inr (.inl hs))))

theorem binding (h : m.Printable) {b : BindingView} (hb : b ∈ m.bindings) :
    IsPlainText b.verb ∧ ∀ s ∈ b.quotedTexts, Quotable s.toList := by
  refine ⟨h.plain b.verb ?_, fun s hs => h.quoted s ?_⟩
  · simp only [plainTexts, List.mem_cons, List.mem_append]
    exact .inr (.inr (.inr (List.mem_map_of_mem hb)))
  · simp only [quotedTexts, List.mem_append]
    exact .inr (.inr (.inr (.inr (List.mem_flatMap.2 ⟨b, hb, hs⟩))))

end Printable

theorem written_fields (h : m.Printable) : Block.EntriesWritten (present m.fields) := by
  refine written_present m.fields ?_ ?_
  · show ∀ key ∈ ["name", "id", "input", "output", "standard", "standard_field", "simple", "lro", "list",
      "streaming", "body", "pagination", "operation", "bindings"], IsKey key
    decide +kernel
  · have hname : isPlainForm m.name.toList = true := (h.plain m.name (by simp [plainTexts])).1
    have hid : Quotable m.id.toList := h.quoted m.id (by simp [quotedTexts])
    have hinput : Quotable m.inputType.toList := h.quoted m.inputType (by simp [quotedTexts])
    have houtput : Quotable m.outputType.toList := h.quoted m.outputType (by simp [quotedTexts])
    have hbody : ∀ s ∈ shownText m.body, Quotable s.toList := fun s hs => h.quoted s (by
      have hs : m.body = some s := mem_shownText hs
      simp [quotedTexts, hs])
    have hbindings : Block.ItemsWritten (m.bindings.map fun b => present b.fields) := by
      refine written_items fun es hes => ?_
      obtain ⟨b, hb, rfl⟩ := List.mem_map.1 hes
      obtain ⟨hverb, hquoted⟩ := h.binding hb
      exact ⟨by simp [BindingView.fields], BindingView.written_fields hverb hquoted⟩
    simp only [fields, List.forall_mem_cons, Option.mem_some, forall_eq', forall_mem_map,
      forall_mem_unlessEmpty, written_plainBlock, written_quotedBlock, written_flagBlock]
    exact ⟨hname, hid, hinput, houtput, fun s hs => (h.standard hs).1.1, fun s hs => (h.standard hs).2.1,
      trivial, trivial, trivial, trivial, hbody,
      fun p hp => ⟨by simp [PaginationView.fields], (PaginationView.written_fields (h.pagination hp).1
        (h.pagination hp).2)⟩,
      fun o ho => ⟨by simp [OperationView.fields], OperationView.written_fields (h.operation ho)⟩,
      fun _ => hbindings, by simp⟩

/-- **A method is read back** to what is shown of it. -/
theorem ofNode?_fields (h : m.Printable) :
    ofNode? (Block.mapping (present m.fields)).node = some m.shown := by
  have hnodup : (m.fields.map (·.1)).Nodup := by
    show ["name", "id", "input", "output", "standard", "standard_field", "simple", "lro", "list", "streaming",
      "body", "pagination", "operation", "bindings"].Nodup
    decide
  have hname := member_present none hnodup "name" rfl
    (Node.text?_plain (h.plain m.name (by simp [plainTexts])).2)
  have hid := member_present none hnodup "id" rfl (Node.text?_quoted m.id)
  have hinput := member_present none hnodup "input" rfl (Node.text?_quoted m.inputType)
  have houtput := member_present none hnodup "output" rfl
    (Node.text?_quoted m.outputType)
  have hkind := optionalMember_present hnodup "standard" rfl
    fun s hs => Node.text?_plain (h.standard hs).1.2
  have hfield := optionalMember_present hnodup "standard_field" rfl
    fun s hs => Node.text?_plain (h.standard hs).2.2
  have hsimple := member_present none hnodup "simple" rfl
    (Node.flag?_plain m.isSimple)
  have hlro := member_present none hnodup "lro" rfl (Node.flag?_plain m.isLro)
  have hlist := member_present none hnodup "list" rfl (Node.flag?_plain m.isList)
  have hstreaming := member_present none hnodup "streaming" rfl
    (Node.flag?_plain m.isStreaming)
  have hbody := optionalMember_present hnodup "body" rfl fun s _ => Node.text?_quoted s
  have hpagination := optionalMember_present hnodup "pagination" rfl
    fun p hp => PaginationView.ofNode?_fields (h.pagination hp).1 (h.pagination hp).2
  have hoperation := optionalMember_present hnodup "operation" rfl
    fun o ho => OperationView.ofNode?_fields (h.operation ho)
  have hbindings := listMember_present hnodup "bindings" rfl
    (list?_items fun b hb => BindingView.ofNode?_fields (h.binding hb).1 (h.binding hb).2)
    fun hnone => by rw [hnone, List.map_nil]
  refine Option.bind_eq_some_iff.2 ⟨_, members?_present (written_fields h), ?_⟩
  refine Option.bind_eq_some_iff.2 ⟨_, hkind, Option.bind_eq_some_iff.2 ⟨_, hfield, ?_⟩⟩
  refine Option.bind_eq_some_iff.2 ⟨_, hname, Option.bind_eq_some_iff.2 ⟨_, hid, ?_⟩⟩
  refine Option.bind_eq_some_iff.2 ⟨_, hinput, Option.bind_eq_some_iff.2 ⟨_, houtput, ?_⟩⟩
  refine Option.bind_eq_some_iff.2 ⟨_, hbody, Option.bind_eq_some_iff.2 ⟨_, hbindings, ?_⟩⟩
  refine Option.bind_eq_some_iff.2 ⟨_, hsimple, Option.bind_eq_some_iff.2 ⟨_, hlro, ?_⟩⟩
  refine Option.bind_eq_some_iff.2 ⟨_, hlist, Option.bind_eq_some_iff.2 ⟨_, hstreaming, ?_⟩⟩
  refine Option.bind_eq_some_iff.2 ⟨_, hpagination, Option.bind_eq_some_iff.2 ⟨_, hoperation, ?_⟩⟩
  -- both parts of the standard form are there, or neither
  have hstandard : ((m.standard.map (·.kind)).bind fun kind =>
      (m.standard.map (·.field)).bind fun field => some (StandardView.mk kind field)) = m.standard := by
    cases m.standard <;> rfl
  refine congrArg some ?_
  unfold shown
  congr 1
  all_goals exact Option.map_id'

end MethodView

/-! ## Services and resources -/

namespace ServiceView

variable {s : ServiceView}

/-- The values that a service writes can be written. -/
structure Printable (s : ServiceView) : Prop where
  name : IsPlainText s.name
  quoted : ∀ t ∈ s.quotedTexts, Quotable t.toList
  methods : ∀ m ∈ s.methods, m.Printable

theorem written_fields (h : s.Printable) : Block.EntriesWritten (present s.fields) := by
  refine written_present s.fields ?_ ?_
  · show ∀ key ∈ ["name", "id", "host", "deprecated", "methods"], IsKey key
    decide +kernel
  · have hid : Quotable s.id.toList := h.quoted s.id (by simp [quotedTexts])
    have hhost : Quotable s.defaultHost.toList := h.quoted s.defaultHost (by simp [quotedTexts])
    have hmethods : Block.ItemsWritten (s.methods.map fun m => present m.fields) := by
      refine written_items fun es hes => ?_
      obtain ⟨m, hm, rfl⟩ := List.mem_map.1 hes
      exact ⟨by simp [MethodView.fields], MethodView.written_fields (h.methods m hm)⟩
    have hdeprecated : ∀ b ∈ (if s.deprecated then some (flagBlock true) else none), b.Written := by
      intro b hb
      split at hb
      · obtain rfl := Option.some.inj hb
        exact written_flagBlock true
      · cases hb
    simp only [fields, List.forall_mem_cons, Option.mem_some, forall_eq', written_plainBlock,
      written_quotedBlock]
    exact ⟨h.name.1, hid, hhost, hdeprecated, hmethods, by simp⟩

/-- **A service is read back** to what is shown of it. -/
theorem ofNode?_fields (h : s.Printable) :
    ofNode? (Block.mapping (present s.fields)).node = some s.shown := by
  have hnodup : (s.fields.map (·.1)).Nodup := by
    show ["name", "id", "host", "deprecated", "methods"].Nodup
    decide
  have hname := member_present none hnodup "name" rfl (Node.text?_plain h.name.2)
  have hid := member_present none hnodup "id" rfl (Node.text?_quoted s.id)
  have hhost := member_present none hnodup "host" rfl
    (Node.text?_quoted s.defaultHost)
  have hdeprecated : memberOr (some false) Node.flag? (membersOf s.fields) "deprecated" =
      some s.deprecated := by
    rw [memberOr_membersOf hnodup]
    show (if s.deprecated then some (flagBlock true) else none).elim _ _ = _
    cases s.deprecated <;> rfl
  have hmethods := member_present none hnodup "methods" rfl
    (list?_items fun m hm => MethodView.ofNode?_fields (h.methods m hm))
  unfold ofNode?
  rw [members?_present (written_fields h)]
  simp only [hname, hid, hhost, hdeprecated, hmethods, Option.bind_eq_bind, Option.bind_some]
  rfl

end ServiceView

namespace ResourceView

variable {r : ResourceView}

theorem written_fields (h : ∀ s ∈ r.quotedTexts, Quotable s.toList) :
    Block.EntriesWritten (present r.fields) := by
  refine written_present r.fields ?_ ?_
  · show ∀ key ∈ ["type", "singular", "plural", "patterns"], IsKey key
    decide +kernel
  · have hpatterns : ∀ s ∈ r.patterns, Quotable s.toList := fun s hs => h s (by simp [quotedTexts, hs])
    simp only [fields, List.forall_mem_cons, Option.mem_some, forall_eq', written_quotedBlock,
      written_listBlock]
    exact ⟨h r.kind (by simp [quotedTexts]), h r.singular (by simp [quotedTexts]),
      h r.plural (by simp [quotedTexts]), hpatterns, by simp⟩

/-- **A resource is read back.** -/
theorem ofNode?_fields (h : ∀ s ∈ r.quotedTexts, Quotable s.toList) :
    ofNode? (Block.mapping (present r.fields)).node = some r := by
  have hnodup : (r.fields.map (·.1)).Nodup := by
    show ["type", "singular", "plural", "patterns"].Nodup
    decide
  have htype := member_present none hnodup "type" rfl (Node.text?_quoted r.kind)
  have hsingular := member_present none hnodup "singular" rfl
    (Node.text?_quoted r.singular)
  have hplural := member_present none hnodup "plural" rfl
    (Node.text?_quoted r.plural)
  have hpatterns := member_present none hnodup "patterns" rfl
    (Node.texts?_list r.patterns)
  unfold ofNode?
  rw [members?_present (written_fields h)]
  simp only [htype, hsingular, hplural, hpatterns, Option.bind_eq_bind, Option.bind_some]
  rfl

end ResourceView

/-! ## Manifests -/

namespace ApiView

variable {v : ApiView}

/-- The values that a manifest writes can be written. -/
structure Printable (v : ApiView) : Prop where
  kinds : ∀ s ∈ v.kinds, IsPlainText s
  plain : ∀ s ∈ v.plainTexts, IsPlainText s
  quoted : ∀ s ∈ v.quotedTexts, Quotable s.toList
  /-- The package stands in the comment, too. -/
  package : IsLine v.package.toList

theorem Printable.service (h : v.Printable) {s : ServiceView} (hs : s ∈ v.services) : s.Printable where
  name := h.plain s.name (List.mem_flatMap.2 ⟨s, hs, List.mem_cons_self ..⟩)
  quoted := fun t ht => h.quoted t (by
    simp only [quotedTexts, List.mem_append]
    exact .inr (.inl (List.mem_flatMap.2 ⟨s, hs, ht⟩)))
  methods := fun m hm => {
    kind := fun k hk => h.kinds k.kind <| by
      refine List.mem_flatMap.2 ⟨s, hs, List.mem_filterMap.2 ⟨m, hm, ?_⟩⟩
      rw [show m.standard = some k from hk]
      rfl
    plain := fun t ht => h.plain t <| List.mem_flatMap.2
      ⟨s, hs, List.mem_cons_of_mem _ (List.mem_flatMap.2 ⟨m, hm, ht⟩)⟩
    quoted := fun t ht => h.quoted t <| by
      simp only [quotedTexts, List.mem_append]
      refine .inr (.inl (List.mem_flatMap.2 ⟨s, hs, ?_⟩))
      exact List.mem_append_right _ (List.mem_flatMap.2 ⟨m, hm, ht⟩) }

theorem Printable.resource (h : v.Printable) {r : ResourceView} (hr : r ∈ v.resources) :
    ∀ s ∈ r.quotedTexts, Quotable s.toList := fun s hs => h.quoted s <| by
  simp only [quotedTexts, List.mem_append]
  exact .inr (.inr (List.mem_flatMap.2 ⟨r, hr, hs⟩))

theorem written_fields (h : v.Printable) : Block.EntriesWritten (present v.fields) := by
  refine written_present v.fields ?_ ?_
  · show ∀ key ∈ ["name", "title", "package", "description", "services", "resources"], IsKey key
    decide +kernel
  · have hdescription : ∀ s ∈ shownText (some v.description), Quotable s.toList := by
      intro s hs
      obtain rfl : v.description = s := Option.some.inj (mem_shownText hs)
      exact h.quoted v.description (by simp [quotedTexts])
    have hservices : Block.ItemsWritten (v.services.map fun s => present s.fields) := by
      refine written_items fun es hes => ?_
      obtain ⟨s, hs, rfl⟩ := List.mem_map.1 hes
      exact ⟨by simp [ServiceView.fields], ServiceView.written_fields (h.service hs)⟩
    have hresources : Block.ItemsWritten (v.resources.map fun r => present r.fields) := by
      refine written_items fun es hes => ?_
      obtain ⟨r, hr, rfl⟩ := List.mem_map.1 hes
      exact ⟨by simp [ResourceView.fields], ResourceView.written_fields (h.resource hr)⟩
    simp only [fields, List.forall_mem_cons, Option.mem_some, forall_eq', forall_mem_map,
      forall_mem_unlessEmpty, written_quotedBlock]
    exact ⟨h.quoted v.name (by simp [quotedTexts]), h.quoted v.title (by simp [quotedTexts]),
      h.quoted v.package (by simp [quotedTexts]), hdescription, hservices, fun _ => hresources, by simp⟩

theorem ofNode?_fields (h : v.Printable) :
    ofNode? (Block.mapping (present v.fields)).node = some v.shown := by
  have hnodup : (v.fields.map (·.1)).Nodup := by
    show ["name", "title", "package", "description", "services", "resources"].Nodup
    decide
  have hname := member_present none hnodup "name" rfl (Node.text?_quoted v.name)
  have htitle := member_present none hnodup "title" rfl (Node.text?_quoted v.title)
  have hpackage := member_present none hnodup "package" rfl
    (Node.text?_quoted v.package)
  have hdescription : memberOr (some "") Node.text? (membersOf v.fields) "description" =
      some v.description := by
    rw [memberOr_membersOf hnodup]
    show ((shownText (some v.description)).map quotedBlock).elim _ _ = _
    cases hempty : v.description.isEmpty with
    | true =>
      rw [String.isEmpty_iff.1 hempty]
      rfl
    | false =>
      have hshown : shownText (some v.description) = some v.description :=
        Option.filter_eq_some_iff.2 ⟨rfl, by rw [hempty]; rfl⟩
      rw [hshown]
      rfl
  have hservices := member_present none hnodup "services" rfl
    (list?_items fun s hs => ServiceView.ofNode?_fields (h.service hs))
  have hresources := listMember_present hnodup "resources" rfl
    (list?_items (g := id) fun r hr => ResourceView.ofNode?_fields (h.resource hr))
    fun hnone => by rw [hnone, List.map_nil]
  unfold ofNode?
  rw [members?_present (written_fields h)]
  simp only [hname, htitle, hpackage, hdescription, hservices, hresources, Option.bind_eq_bind,
    Option.bind_some, List.map_id]
  rfl

/-- **A manifest is read back** to what it shows. -/
theorem ofManifest?_manifest (h : v.Printable) : ofManifest? v.manifest = some v.shown := by
  have hcomment : IsLine v.comment.toList := by
    unfold comment
    rw [String.toList_append, String.toList_append]
    exact (IsLine.append (by decide) h.package).append (by decide)
  unfold ofManifest?
  rw [manifest_eq_documentText, ofText?_documentText hcomment (by simp [fields]) (written_fields h)]
  exact ofNode?_fields h

/-- What has no tokens is no manifest. -/
theorem ofManifest?_eq_none {s : String} (cs : List Char) (hs : s.toList = '#' :: cs)
    (h : Lexer.run ((cellsFrom 0 0 ('#' :: cs)).length + 1) {} (cellsFrom 0 0 ('#' :: cs)) = none) :
    ofManifest? s = none := by
  have hcells : cells s = cellsFrom 0 0 ('#' :: cs) := by
    unfold cells
    rw [hs]
    rfl
  have htokens : tokens? s = none := by
    unfold tokens?
    rw [hcells]
    simp only [h, ite_self]
  unfold ofManifest? Document.ofText?
  rw [htokens]
  rfl

end ApiView

/-! ## Models -/

theorem StandardFields.isPlainText_kind {s : StandardFields} {v : StandardView} (h : s.view? = some v) :
    IsPlainText v.kind := by
  have hkinds : ∀ k ∈ ["get", "list", "create", "update", "delete", "undelete"], IsPlainText k := by
    decide +kernel
  refine hkinds v.kind ?_
  unfold view? at h
  simp only [Option.or_eq_some_iff, Option.map_eq_some_iff, Option.map_eq_none_iff] at h
  obtain ⟨_, _, rfl⟩ | ⟨-, ⟨_, _, rfl⟩ | ⟨-, ⟨_, _, rfl⟩ | ⟨-, ⟨_, _, rfl⟩ | ⟨-, ⟨_, _, rfl⟩ |
    ⟨-, _, _, rfl⟩⟩⟩⟩⟩ := h <;> simp

/-- Written without quotes, wherever a value can stand, the text is read as itself. -/
def StandsForItself (s : String) : Prop :=
  ∀ indent column, indent < column → plainValue? indent column s = some s

theorem standsForItself_iff {s : String} : StandsForItself s ↔ IsPlainText s :=
  ⟨fun h => (plainValue?_eq_some_iff Nat.zero_lt_one).1 (h 0 1 Nat.zero_lt_one),
    fun h _ _ hcolumn => (plainValue?_eq_some_iff hcolumn).2 h⟩

theorem standsForItself_iff_of_isIdentifier {s : String} (h : IsIdentifier s) :
    StandsForItself s ↔ s ∉ Core.reservedWords :=
  standsForItself_iff.trans (isPlainText_iff_of_isIdentifier h)

namespace Api

theorem isPlainText_kinds (api : Api) : ∀ s ∈ api.view.kinds, IsPlainText s := by
  intro kind hkind
  obtain ⟨s, hs, hkind⟩ := List.mem_flatMap.1 hkind
  obtain ⟨m, hm, hkind⟩ := List.mem_filterMap.1 hkind
  obtain ⟨service, -, rfl⟩ := List.mem_map.1 hs
  obtain ⟨method, -, rfl⟩ := List.mem_map.1 hm
  obtain ⟨standard, hstandard, rfl⟩ := Option.map_eq_some_iff.1 hkind
  exact StandardFields.isPlainText_kind hstandard

/-- **A manifest says what the view says** where the values without quotes stand for themselves.  The standard
kinds always do; of the others those do that have the form of a plain scalar and that the schema takes for
texts. -/
theorem manifest_faithful (api : Api) :
    (∀ s ∈ api.view.kinds, StandsForItself s) ∧
      (∀ s ∈ api.view.plainTexts, StandsForItself s ↔ IsPlainText s) ∧
      ((∀ s ∈ api.view.plainTexts, StandsForItself s) →
        (∀ s ∈ api.view.quotedTexts, Quotable s.toList) → IsLine api.view.package.toList →
        ApiView.ofManifest? api.view.manifest = some api.view.shown) := by
  refine ⟨fun s hs => standsForItself_iff.2 (api.isPlainText_kinds s hs), fun s _ => standsForItself_iff, ?_⟩
  intro hplain hquoted hpackage
  exact ApiView.ofManifest?_manifest
    { kinds := api.isPlainText_kinds
      plain := fun s hs => standsForItself_iff.1 (hplain s hs)
      quoted := hquoted
      package := hpackage }

theorem manifest_faithful_library :
    ∃ api, createModel plainConfig (.ok Target.library : Except Unit Api) = .ok api ∧
      api.view.plainTexts = ["Library", "UpdateBook", "PATCH"] ∧
      ApiView.ofManifest? api.view.manifest = some api.view.shown := by
  obtain ⟨-, hplain, hread⟩ := (builtLibrary none).manifest_faithful
  have htexts : (builtLibrary none).view.plainTexts = ["Library", "UpdateBook", "PATCH"] := by rfl
  have hstands : ∀ s ∈ (builtLibrary none).view.plainTexts, StandsForItself s := by
    rw [htexts]
    have hforms : ∀ s ∈ ["Library", "UpdateBook", "PATCH"], IsPlainText s := by decide +kernel
    exact fun s hs => (hplain s (htexts ▸ hs)).2 (hforms s hs)
  have hquoted : (builtLibrary none).view.quotedTexts = ["library", "", "v1", "", ".v1.Library", "",
      ".v1.Library.UpdateBook", ".v1.UpdateBookRequest", ".v1.Book",
      "/v1/\x7bbook.name=shelves/*/books/*\x7d", "//library.googleapis.com/\x7bbook.name\x7d",
      "book.name"] := by rfl
  have hpackage : (builtLibrary none).view.package = "v1" := by rfl
  refine ⟨_, createModel_library none, htexts, hread hstands ?_ ?_⟩
  · rw [hquoted]
    decide +kernel
  · rw [hpackage]
    decide +kernel

/-- **A model whose names and verbs are identifiers** says with its manifest what its view says, if none of them
is a reserved word. -/
theorem ofManifest?_of_isIdentifier (api : Api)
    (hnames : ∀ s ∈ api.view.plainTexts, IsIdentifier s ∧ s ∉ Core.reservedWords)
    (hquoted : ∀ s ∈ api.view.quotedTexts, Quotable s.toList) (hpackage : IsLine api.view.package.toList) :
    ApiView.ofManifest? api.view.manifest = some api.view.shown :=
  ApiView.ofManifest?_manifest
    { kinds := api.isPlainText_kinds
      plain := fun s hs => (isPlainText_iff_of_isIdentifier (hnames s hs).1).2 (hnames s hs).2
      quoted := hquoted
      package := hpackage }

/-- A model with a method that is bound to every verb. -/
def relay : Api :=
  let service := Service.new "Relay" "v1"
  (({ name := "relay", package := "v1" } : Api).addMessage (.new "Call" "v1" none)).addService service
    [{ Method.new service "Forward" ".v1.Call" ".v1.Call" with
      pathInfo.bindings := [{ verb := "*", path := { segments := [.literal "v1"] } }] }]

/-- What is shown of it. -/
def relayView : ApiView :=
  { name := "relay", title := "", description := "", package := "v1", resources := []
    services := [{
      name := "Relay", id := ".v1.Relay", documentation := "", defaultHost := "", deprecated := false
      methods := [{
        name := "Forward", id := ".v1.Relay.Forward", documentation := "", deprecated := false
        inputType := ".v1.Call", outputType := ".v1.Call", body := none
        bindings := [{ verb := "*", path := "/v1", queryParameters := [], targetTemplate := none
                       targetFields := [] }]
        isSimple := true, isLro := false, isList := false, isStreaming := false
        standard := none, pagination := none, operation := none }] }] }

/-- The verb for every verb begins an alias, and the manifest is no document. -/
theorem not_manifest_faithful_relay :
    ∃ api, createModel plainConfig (.ok relay : Except Unit Api) = .ok api ∧
      "*" ∈ api.view.plainTexts ∧ ¬ StandsForItself "*" ∧
      ApiView.ofManifest? api.view.manifest = none := by
  obtain ⟨api, hcreate, hview⟩ :
      ∃ api, createModel plainConfig (.ok relay : Except Unit Api) = .ok api ∧
        api.view = relayView := ⟨_, rfl, rfl⟩
  have hverb : ¬ IsPlainText "*" := by decide
  refine ⟨api, hcreate, ?_⟩
  rw [hview]
  refine ⟨by decide, fun h => hverb (standsForItself_iff.1 h), ?_⟩
  refine ApiView.ofManifest?_eq_none (relayView.comment.toList ++
    ((Block.entryLines 0 (present relayView.fields)).flatMap (·.text.toList) ++ ['\n'])) ?_ ?_
  · rw [manifest_eq_documentText, toList_documentText]
  · decide +kernel

end Api

end ApiModel
