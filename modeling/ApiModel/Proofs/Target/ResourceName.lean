import ApiModel.Proofs.PathTemplate.RoundTrip
import ApiModel.Proofs.Target.Strategy

/-!
# What a target says

The template of a target and its field paths are made apart, from the segments of the path that
`explicit?` or `byVocabulary?` chooses.  Both choices are segments of the path in their order, and every
variable among them is bound to a field of the request.

Principal results:

* `describes_of_identifyTargets` — a target describes segments of a path of its method;
* `namesResource_of_identifyTargets` — **behind the host, the template of a target is read as a path
  template over single segments, whose variables are the field paths of the target**.
-/

namespace ApiModel

/-- The target names a resource of a host by fields of a request. -/
structure TargetResource.NamesResource (t : TargetResource) (api : Api) (host : String)
    (input : Message) : Prop where
  template : ∃ rest path, t.template = "//" ++ host ++ rest ∧ PathTemplate.parse rest = .ok path ∧
    path.verb = none ∧ (∀ v ∈ path.boundVariables, v.isSingle = true) ∧
    path.boundVariables.map (·.fieldPath) = t.fieldPaths
  fieldPaths_ne : t.fieldPaths ≠ []
  fields : ∀ path ∈ t.fieldPaths, ∃ f, api.FieldAt input path f

namespace Target

variable {api found : Api} {s : Service} {m : Method} {t : TargetResource} {path : PathTemplate}

/-! ## Segments that a target describes -/

/-- The variables among segments. -/
def variablesOf (segments : List PathSegment) : List PathVariable :=
  segments.filterMap PathSegment.binding?

/-- The target describes segments of a path: they make up its template, and each of their variables
gives a field path, which leads to a field of the request. -/
structure Describes (api : Api) (s : Service) (input : Message) (path : PathTemplate)
    (segments : List PathSegment) (t : TargetResource) : Prop where
  sublist : segments.Sublist path.segments
  template : template api s segments = .ok t.template
  fieldPaths : t.fieldPaths = (variablesOf segments).map (·.fieldPath)
  fieldPaths_ne : t.fieldPaths ≠ []
  fields : ∀ path ∈ t.fieldPaths, ∃ f, api.FieldAt input path f

theorem dropTail_sublist (segments : List PathSegment) : (dropTail segments).Sublist segments := by
  unfold dropTail
  have hreverse := (List.dropWhile_sublist (!·.isBound) (l := segments.reverse)).reverse
  rwa [List.reverse_reverse] at hreverse

theorem variablesOf_dropWhile (segments : List PathSegment) :
    variablesOf (segments.dropWhile (!·.isBound)) = variablesOf segments := by
  induction segments with
  | nil => rfl
  | cons x rest ih =>
    cases x with
    | literal word => exact ih
    | bound v => rfl

/-- Only literals stand behind the last variable. -/
theorem variablesOf_dropTail (segments : List PathSegment) :
    variablesOf (dropTail segments) = variablesOf segments := by
  have hdrop := variablesOf_dropWhile segments.reverse
  unfold dropTail
  unfold variablesOf at hdrop ⊢
  rw [List.filterMap_reverse, hdrop, List.filterMap_reverse, List.reverse_reverse]

theorem fromFirst_sublist (segments : List PathSegment) : (fromFirst segments).Sublist segments := by
  fun_induction fromFirst segments with
  | case1 word v rest => exact .refl _
  | case2 word v rest => exact List.sublist_cons_self _ _
  | case3 word rest _ ih => exact ih.cons _
  | case4 segments => exact .refl _

/-- Only literals stand ahead of the first variable. -/
theorem variablesOf_fromFirst (segments : List PathSegment) :
    variablesOf (fromFirst segments) = variablesOf segments := by
  fun_induction fromFirst segments with
  | case1 word v rest => rfl
  | case2 word v rest => rfl
  | case3 word rest _ ih => exact ih
  | case4 segments => rfl

theorem segments_of_pairs (vocabulary : List String) (segments : List PathSegment) :
    (pairs vocabulary segments).flatMap Pair.segments <+: segments := by
  fun_induction pairs vocabulary segments with
  | case1 word v rest _ ih => exact List.prefix_append_right_inj [.literal word, .bound v] |>.2 ih
  | case2 word v rest _ => exact List.nil_prefix
  | case3 segments => exact List.nil_prefix

theorem firstPairs_sublist (vocabulary : List String) (segments : List PathSegment) :
    ((firstPairs vocabulary segments).flatMap Pair.segments).Sublist segments := by
  fun_cases firstPairs vocabulary segments with
  | case1 => exact List.nil_sublist _
  | case2 => exact List.nil_sublist _
  | case3 i _ _ => exact (segments_of_pairs vocabulary _).sublist.trans (List.drop_sublist i segments)

theorem variablesOf_pairs (ps : List Pair) : variablesOf (ps.flatMap Pair.segments) = ps.map (·.id) := by
  induction ps with
  | nil => rfl
  | cons p rest ih => exact congrArg (p.id :: ·) ih

/-! ## Targets of a path -/

theorem describes_of_explicit? (h : explicit? api s m path = .ok (some t)) :
    ∃ input segments, api.message? m.inputTypeId = some input ∧
      Describes api s input path segments t := by
  obtain ⟨input, hinput, hfields, htarget, hplain⟩ := explicit?_eq_ok_iff.1 h
  have hannotated : Annotated api m path := by
    by_contra hno
    cases hplain hno
  obtain ⟨name, hname, heq⟩ := htarget hannotated
  obtain rfl := Option.some.inj heq
  refine ⟨input, fromFirst (dropTail path.segments), hinput, ?_, hname, ?_, ?_, ?_⟩
  · exact (fromFirst_sublist _).trans (dropTail_sublist _)
  · rw [variablesOf_fromFirst, variablesOf_dropTail]
    rfl
  · exact mt List.map_eq_nil_iff.1 hannotated.1
  · exact List.forall_mem_map.2 hfields

theorem describes_of_byVocabulary? {words : List String}
    (h : byVocabulary? api s m path words = .ok (some t)) :
    ∃ input segments, api.message? m.inputTypeId = some input ∧
      Describes api s input path segments t := by
  obtain ⟨htarget, hplain⟩ := byVocabulary?_eq_ok_iff.1 h
  have hfinds : Finds words s path := by
    by_contra hno
    cases hplain hno
  obtain ⟨input, name, hinput, hfields, hname, heq⟩ := htarget hfinds
  obtain rfl := Option.some.inj heq
  refine ⟨input, _, hinput, firstPairs_sublist words _, hname, ?_, ?_, ?_⟩
  · rw [variablesOf_pairs, List.map_map]
    rfl
  · exact mt List.map_eq_nil_iff.1 hfinds.2
  · exact List.forall_mem_map.2 hfields

/-- A target describes segments of the path it was found for. -/
theorem describes_of_ofPath {words : List String} (h : ofPath api words s m path = .ok (some t)) :
    ∃ input segments, api.message? m.inputTypeId = some input ∧
      Describes api s input path segments t := by
  unfold ofPath at h
  obtain ⟨explicit, hexplicit, h⟩ := bind_eq_ok_iff.1 h
  cases explicit with
  | some t' =>
    obtain rfl := Option.some.inj (Except.ok.inj h)
    exact describes_of_explicit? hexplicit
  | none => exact describes_of_byVocabulary? h

/-- A target that the pass leaves on a listed method describes segments of a path of the method. -/
theorem describes_of_identifyTargets (hkeyed : api.Keyed) (howned : api.MethodsOwned)
    (h : api.identifyTargets = .ok found) {i id : String} (hs : api.service? i = some s)
    (hid : id ∈ s.methods) (hm : found.method? id = some m) {b : PathBinding}
    (hb : b ∈ m.pathInfo.bindings) (ht : b.target = some t) :
    ∃ old binding input segments, api.method? id = some old ∧ binding ∈ old.pathInfo.bindings ∧
      api.message? m.inputTypeId = some input ∧ Describes api s input binding.path segments t := by
  obtain ⟨old, hold⟩ : ∃ old, api.method? id = some old := by
    obtain ⟨targets, -, rfl⟩ := identifyTargets_eq_ok_iff.1 h
    rw [foldl_record] at hm
    obtain ⟨old, hold, -⟩ := Option.map_eq_some_iff.1 ((IdMap.get?_map _ _ _).symm.trans hm)
    exact ⟨old, hold⟩
  obtain ⟨own, hown, hrecorded⟩ := recorded_of_identifyTargets hkeyed howned h hs hid hold
  obtain rfl := Option.some.inj (hm.symm.trans hrecorded)
  obtain ⟨binding, hbinding, -, hofPath⟩ := exists_of_mem_assign hown hb
  rw [ht] at hofPath
  obtain ⟨input, segments, hinput, hdescribes⟩ := describes_of_ofPath hofPath
  exact ⟨old, binding, input, segments, hold, hbinding, hinput, hdescribes⟩

end Target

/-! ## Reading a template back -/

/-- The segment with a variable made to match one segment. -/
def PathSegment.single : PathSegment → PathSegment
  | .literal word => .literal word
  | .bound v => .bound { v with segments := PathVariable.anySegment }

theorem PathSegment.text_single (x : PathSegment) : x.single.text = Target.segmentText x := by
  cases x with
  | literal word => rfl
  | bound v => rfl

theorem PathSegment.WellFormed.single {x : PathSegment} (h : x.WellFormed) : x.single.WellFormed := by
  cases x with
  | literal word => exact h
  | bound v =>
    exact ⟨h.fieldPath_ne, h.names, by simp [PathVariable.anySegment],
      PathTemplate.anySegment_isPattern⟩

namespace Target

variable {api found : Api} {s : Service} {m : Method} {t : TargetResource} {path : PathTemplate}

theorem variablesOf_single (segments : List PathSegment) :
    (variablesOf (segments.map PathSegment.single)) =
      (variablesOf segments).map ({ · with segments := PathVariable.anySegment }) := by
  induction segments with
  | nil => rfl
  | cons x rest ih =>
    cases x with
    | literal word => exact ih
    | bound v => exact congrArg (_ :: ·) ih

/-- A resource name template is the host and a path over single segments. -/
theorem template_eq_ok_iff {segments : List PathSegment} {name : String} :
    template api s segments = .ok name ↔ ∃ H, host api s = .ok H ∧
      name = "//" ++ H ++ PathTemplate.text { segments := segments.map PathSegment.single } := by
  have htext : PathTemplate.text { segments := segments.map PathSegment.single } =
      String.join (segments.map fun x => "/" ++ segmentText x) := by
    simp [PathTemplate.text, PathTemplate.verbText, Function.comp_def, PathSegment.text_single]
  unfold template
  rw [bind_eq_ok_iff, htext]
  simp [pure, Except.pure, eq_comm]

/-- What a target describes of a path that was read, its template says. -/
theorem namesResource_of_describes {input : Message} {segments : List PathSegment}
    (h : Describes api s input path segments t) (hread : path.WellFormed) :
    ∃ H, host api s = .ok H ∧ t.NamesResource api H input := by
  obtain ⟨H, hhost, htemplate⟩ := template_eq_ok_iff.1 h.template
  have hne : segments ≠ [] := by
    rintro rfl
    exact h.fieldPaths_ne h.fieldPaths
  have hwell : PathTemplate.WellFormed { segments := segments.map PathSegment.single } :=
    { segments_ne := fun hnil => hne (List.map_eq_nil_iff.1 hnil)
      segments := List.forall_mem_map.2 fun x hx => (hread.segments x (h.sublist.subset hx)).single
      verb := by simp }
  have hvariables : PathTemplate.boundVariables { segments := segments.map PathSegment.single } =
      (variablesOf segments).map ({ · with segments := PathVariable.anySegment }) :=
    variablesOf_single segments
  refine ⟨H, hhost, ⟨_, _, htemplate, PathTemplate.parse_text hwell, rfl, ?_, ?_⟩,
    h.fieldPaths_ne, h.fields⟩
  · rw [hvariables]
    exact List.forall_mem_map.2 fun v _ => PathTemplate.isSingle_iff.2 rfl
  · rw [hvariables, List.map_map, h.fieldPaths]
    rfl

/-- **Behind the host, the template of a target is read as a path template** over single segments, whose
variables are the field paths of the target; every field path leads to a field of the request. -/
theorem namesResource_of_identifyTargets (hkeyed : api.Keyed) (howned : api.MethodsOwned)
    (hread : ∀ id m, api.method? id = some m → ∀ b ∈ m.pathInfo.bindings,
      ∃ text, PathTemplate.parse text = .ok b.path)
    (h : api.identifyTargets = .ok found) {i id : String} (hs : found.service? i = some s)
    (hid : id ∈ s.methods) (hm : found.method? id = some m) {b : PathBinding}
    (hb : b ∈ m.pathInfo.bindings) (ht : b.target = some t) :
    ∃ H input, host found s = .ok H ∧ found.message? m.inputTypeId = some input ∧
      t.NamesResource found H input := by
  obtain ⟨targets, -, hfound⟩ := identifyTargets_eq_ok_iff.1 h
  rw [foldl_record] at hfound
  -- nothing but methods is changed
  have hmessages : ∀ id, found.message? id = api.message? id := fun id => by rw [← hfound]; rfl
  have hservices : found.service? i = api.service? i := by rw [← hfound]; rfl
  have hhost : host found s = host api s := by rw [← hfound]; rfl
  obtain ⟨old, binding, input, segments, hold, hbinding, hinput, hdescribes⟩ :=
    describes_of_identifyTargets hkeyed howned h (hservices.symm.trans hs) hid hm hb ht
  obtain ⟨text, htext⟩ := hread id old hold binding hbinding
  have hwell := ((PathTemplate.parse_eq_ok_iff text binding.path).1 htext).1
  obtain ⟨H, hH, hnames⟩ := namesResource_of_describes hdescribes hwell
  refine ⟨H, input, hhost.trans hH, (hmessages _).trans hinput, ?_⟩
  exact ⟨hnames.template, hnames.fieldPaths_ne, fun path hpath =>
    (hnames.fields path hpath).imp fun _ => .congr hmessages⟩

/-- Books on shelves, and a method whose path names the book inside of its request. -/
def library : Api :=
  let book : Message := (Message.new "Book" "v1" none).addField
    { name := "name", jsonName := "name", kind := .string,
      resourceReference := some { kind := "library/Book" } }
  let request : Message := (Message.new "UpdateBookRequest" "v1" none).addField
    { name := "book", jsonName := "book", kind := .message, typeId := ".v1.Book",
      links.messageType := some ".v1.Book" }
  let path : PathTemplate := { segments := [.literal "v1",
    .bound { fieldPath := ["book", "name"], segments := ["shelves", "*", "books", "*"] }] }
  let service := Service.new "Library" "v1"
  ((({ name := "library", package := "v1" } : Api).addMessage book).addMessage request).addService
    service [{ Method.new service "UpdateBook" ".v1.UpdateBookRequest" ".v1.Book" with
      pathInfo.bindings := [{ verb := "PATCH", path }] }]

/-- The target of the path: the book, by its name inside of the request. -/
def bookTarget : TargetResource :=
  { fieldPaths := [["book", "name"]], template := "//library.googleapis.com/\x7bbook.name\x7d" }

theorem methodsOwned_library : library.MethodsOwned := Api.methodsOwned_of_single rfl

theorem namesResource_of_identifyTargets_library :
    library.Keyed ∧ library.MethodsOwned ∧
      (∀ id m, library.method? id = some m → ∀ b ∈ m.pathInfo.bindings,
        ∃ text, PathTemplate.parse text = .ok b.path) ∧
      ∃ found s m b input, library.identifyTargets = .ok found ∧
        found.service? ".v1.Library" = some s ∧ ".v1.Library.UpdateBook" ∈ s.methods ∧
        found.method? ".v1.Library.UpdateBook" = some m ∧ b ∈ m.pathInfo.bindings ∧
        b.target = some bookTarget ∧ bookTarget.NamesResource found "library.googleapis.com" input := by
  have hkeyed : library.Keyed := by decide
  have hread : ∀ id m, library.method? id = some m → ∀ b ∈ m.pathInfo.bindings,
      ∃ text, PathTemplate.parse text = .ok b.path := by
    intro id m hm b hb
    obtain rfl := congrArg Prod.snd (List.mem_singleton.1 (IdMap.get?_eq_some_iff.1 hm))
    obtain rfl := List.mem_singleton.1 hb
    exact ⟨"/v1/\x7bbook.name=shelves/*/books/*\x7d", by rfl⟩
  have hfound : library.identifyTargets =
      .ok (record library (".v1.Library.UpdateBook", [some bookTarget])) := rfl
  obtain ⟨H, input, hhost, -, hnames⟩ := namesResource_of_identifyTargets hkeyed
    methodsOwned_library hread hfound (i := ".v1.Library") rfl (List.mem_singleton_self _) rfl
    (List.mem_singleton_self _) rfl
  obtain rfl : H = "library.googleapis.com" := (Except.ok.inj hhost).symm
  exact ⟨hkeyed, methodsOwned_library, hread, _, _, _, _, input, hfound, rfl,
    List.mem_singleton_self _, rfl, List.mem_singleton_self _, rfl, hnames⟩

end Target

end ApiModel
