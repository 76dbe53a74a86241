import ApiModel.Proofs.Target.Vocabulary

/-!
# Targets by annotation

Where every variable of a path is bound to a field that refers to a resource, the path itself names what it
acts on: the name begins at the first variable, or at the collection before it, and ends at the last one.
Services and vocabularies have no say in that.

Principal results:

* `dropTail_eq_take`, `fromFirst_eq_drop` — the segments of the name are a slice of the path;
* `target_by_annotation` — **an annotated path has the slice as its target, and any other path is left to
  the vocabulary**.
-/

namespace ApiModel

namespace Target

variable {segments rest : List PathSegment} {f l : Nat} {v : PathVariable}

/-! ## The first and the last variable -/

/-- The last variable stands at the position. -/
def LastVariable (segments : List PathSegment) (l : Nat) : Prop :=
  (∃ v, segments[l]? = some (.bound v)) ∧ ∀ j v, l < j → segments[j]? ≠ some (.bound v)

/-- Where a name begins that has its first variable at the position: a variable over one segment is preceded
by its collection. -/
def nameStart (f : Nat) (v : PathVariable) : Nat :=
  if 1 ≤ f ∧ v.isSingle = true then f - 1 else f

theorem firstVariable_cons_literal {word : String} :
    FirstVariable (.literal word :: rest) (f + 1) ↔ FirstVariable rest f := by
  constructor
  · intro h
    exact ⟨h.1, fun j hj => h.2 (j + 1) (by omega)⟩
  · intro h
    refine ⟨h.1, fun j hj => ?_⟩
    cases j with
    | zero => exact ⟨word, rfl⟩
    | succ j => exact h.2 j (by omega)

theorem not_firstVariable_cons_literal {word : String} :
    ¬ FirstVariable (.literal word :: rest) 0 := by
  rintro ⟨⟨v, hv⟩, -⟩
  cases hv

theorem firstVariable_cons_bound : FirstVariable (.bound v :: rest) f ↔ f = 0 := by
  have hzero : FirstVariable (.bound v :: rest) 0 := ⟨⟨v, rfl⟩, fun j hj => absurd hj (by omega)⟩
  constructor
  · intro h
    exact h.unique hzero
  · rintro rfl
    exact hzero

/-- A variable right behind the literal at the front is the first one. -/
theorem firstVariable_cons_pair {word : String} :
    FirstVariable (.literal word :: .bound v :: rest) f ↔ f = 1 := by
  cases f with
  | zero => exact iff_of_false not_firstVariable_cons_literal (by omega)
  | succ f =>
    rw [firstVariable_cons_literal, firstVariable_cons_bound]
    omega

theorem exists_firstVariable (h : variablesOf segments ≠ []) : ∃ f, FirstVariable segments f := by
  induction segments with
  | nil => exact absurd rfl h
  | cons x rest ih =>
    cases x with
    | literal word =>
      obtain ⟨f, hf⟩ := ih h
      exact ⟨f + 1, firstVariable_cons_literal.2 hf⟩
    | bound v => exact ⟨0, firstVariable_cons_bound.2 rfl⟩

theorem exists_lastVariable (h : variablesOf segments ≠ []) : ∃ l, LastVariable segments l := by
  induction segments with
  | nil => exact absurd rfl h
  | cons x rest ih =>
    by_cases hrest : variablesOf rest = []
    · -- the front is the only variable there is
      have hnone : ∀ v, .bound v ∉ rest := by
        intro v hv
        have hmem : v ∈ variablesOf rest := List.mem_filterMap.2 ⟨_, hv, rfl⟩
        rw [hrest] at hmem
        cases hmem
      cases x with
      | literal word => exact absurd hrest h
      | bound v =>
        refine ⟨0, ⟨v, rfl⟩, fun j w hj hw => ?_⟩
        cases j with
        | zero => omega
        | succ j => exact hnone w (List.mem_of_getElem? hw)
    · obtain ⟨l, hl, hbehind⟩ := ih hrest
      refine ⟨l + 1, hl, fun j w hj => ?_⟩
      cases j with
      | zero => omega
      | succ j => exact hbehind j w (by omega)

theorem FirstVariable.le_last (hf : FirstVariable segments f) (hl : LastVariable segments l) : f ≤ l := by
  obtain ⟨v, hv⟩ := hf.1
  exact Nat.le_of_not_lt fun hlt => hl.2 f v hlt hv

/-- What is cut off behind the first variable does not move it. -/
theorem FirstVariable.take (h : FirstVariable segments f) {n : Nat} (hn : f < n) :
    FirstVariable (segments.take n) f := by
  unfold FirstVariable at h ⊢
  refine ⟨?_, fun j hj => ?_⟩
  · rw [List.getElem?_take_of_lt hn]
    exact h.1
  · rw [List.getElem?_take_of_lt (by omega)]
    exact h.2 j hj

/-! ## The slice -/

/-- **The path ends at its last variable.** -/
theorem dropTail_eq_take (h : LastVariable segments l) : dropTail segments = segments.take (l + 1) := by
  obtain ⟨⟨v, hv⟩, hbehind⟩ := h
  have hliterals : ∀ x ∈ (segments.drop (l + 1)).reverse, (!x.isBound) = true := by
    intro x hx
    obtain ⟨j, hj⟩ := List.mem_iff_getElem?.1 (List.mem_reverse.1 hx)
    rw [List.getElem?_drop] at hj
    cases x with
    | literal word => rfl
    | bound w => exact absurd hj (hbehind _ w (by omega))
  have hlength : l < segments.length := (List.getElem?_eq_some_iff.1 hv).1
  have htake : segments.take (l + 1) = segments.take l ++ [.bound v] := by
    rw [List.take_add_one, hv]
    rfl
  have hreverse : segments.reverse = (segments.drop (l + 1)).reverse ++ (segments.take (l + 1)).reverse := by
    rw [← List.reverse_append, List.take_append_drop]
  unfold dropTail
  rw [hreverse, List.dropWhile_append_of_pos hliterals, htake, List.reverse_append]
  simp [PathSegment.isBound, PathSegment.binding?]

/-- **The path begins at its first variable**, or at the literal before it. -/
theorem fromFirst_eq_drop (h : FirstVariable segments f) (hv : segments[f]? = some (.bound v)) :
    fromFirst segments = segments.drop (nameStart f v) := by
  unfold nameStart
  fun_induction fromFirst segments generalizing f with
  | case1 word w rest hsingle =>
    obtain rfl := firstVariable_cons_pair.1 h
    obtain rfl : w = v := PathSegment.bound.inj (Option.some.inj hv)
    rw [if_pos ⟨le_rfl, hsingle⟩]
    rfl
  | case2 word w rest hsingle =>
    obtain rfl := firstVariable_cons_pair.1 h
    obtain rfl : w = v := PathSegment.bound.inj (Option.some.inj hv)
    rw [if_neg (fun hcase => hsingle hcase.2)]
    rfl
  | case3 word rest hliteral ih =>
    cases f with
    | zero => exact absurd h not_firstVariable_cons_literal
    | succ f =>
      have hrest := firstVariable_cons_literal.1 h
      have hv' : rest[f]? = some (.bound v) := hv
      -- behind a literal the next segment is no variable here
      have hpos : f ≠ 0 := by
        rintro rfl
        cases rest with
        | nil => cases hv'
        | cons x more =>
          obtain rfl : x = .bound v := Option.some.inj hv'
          exact hliteral v more rfl
      rw [ih hrest hv']
      by_cases hsingle : v.isSingle = true
      · rw [if_pos ⟨by omega, hsingle⟩, if_pos ⟨by omega, hsingle⟩]
        obtain ⟨g, rfl⟩ := Nat.exists_eq_succ_of_ne_zero hpos
        rfl
      · rw [if_neg (fun hcase => hsingle hcase.2), if_neg (fun hcase => hsingle hcase.2)]
        rfl
  | case4 segments hother hliteral =>
    cases segments with
    | nil => cases hv
    | cons x more =>
      cases x with
      | literal word => exact absurd rfl (hliteral word more)
      | bound w =>
        obtain rfl := firstVariable_cons_bound.1 h
        rfl

/-! ## Targets -/

variable {api found : Api} {s : Service} {m : Method} {path : PathTemplate} {t : Option TargetResource}

/-- The target names the slice of the path between its first and its last variable, with the collection before
the first one. -/
structure IsSlice (api : Api) (s : Service) (path : PathTemplate) (f l : Nat) (v : PathVariable)
    (t : TargetResource) : Prop where
  first : FirstVariable path.segments f
  atFirst : path.segments[f]? = some (.bound v)
  last : LastVariable path.segments l
  fieldPaths : t.fieldPaths = path.boundVariables.map (·.fieldPath)
  template : ∃ H, host api s = .ok H ∧ t.template = "//" ++ H ++
    String.join (((path.segments.take (l + 1)).drop (nameStart f v)).map fun x => "/" ++ segmentText x)

theorem isSlice_of_template {name : String} (hne : path.boundVariables ≠ [])
    (h : template api s (fromFirst (dropTail path.segments)) = .ok name) :
    ∃ f l v, IsSlice api s path f l v
      { fieldPaths := path.boundVariables.map (·.fieldPath), template := name } := by
  obtain ⟨f, hf⟩ := exists_firstVariable hne
  obtain ⟨l, hl⟩ := exists_lastVariable hne
  obtain ⟨v, hv⟩ := hf.1
  have hlt : f < l + 1 := Nat.lt_succ_of_le (hf.le_last hl)
  have hv' : (path.segments.take (l + 1))[f]? = some (.bound v) := by
    rw [List.getElem?_take_of_lt hlt]
    exact hv
  rw [dropTail_eq_take hl, fromFirst_eq_drop (hf.take hlt) hv'] at h
  obtain ⟨H, hhost, hname⟩ := bind_eq_ok_iff.1 h
  exact ⟨f, l, v, hf, hv, hl, rfl, H, hhost, (Except.ok.inj hname).symm⟩

/-- An annotated path has the slice as its target, whatever the vocabulary is. -/
theorem exists_slice_of_annotated {words : List String} (hannotated : Annotated api m path)
    (h : ofPath api words s m path = .ok t) :
    ∃ target, t = some target ∧ (∀ words', ofPath api words' s m path = .ok (some target)) ∧
      ∃ f l v, IsSlice api s path f l v target := by
  obtain ⟨e, hexplicit, h⟩ := bind_eq_ok_iff.1 h
  obtain ⟨_, _, _, htarget, -⟩ := explicit?_eq_ok_iff.1 hexplicit
  obtain ⟨name, hname, rfl⟩ := htarget hannotated
  refine ⟨_, (Except.ok.inj h).symm, fun words' => ?_, isSlice_of_template hannotated.1 hname⟩
  exact bind_eq_ok_iff.2 ⟨_, hexplicit, rfl⟩

/-- The explicit pass has nothing to say of a path that is not annotated. -/
theorem byVocabulary?_of_not_annotated {words : List String} (hplain : ¬ Annotated api m path)
    (h : ofPath api words s m path = .ok t) :
    explicit? api s m path = .ok none ∧ byVocabulary? api s m path words = .ok t := by
  obtain ⟨e, hexplicit, h'⟩ := bind_eq_ok_iff.1 h
  obtain ⟨_, _, _, -, hnone⟩ := explicit?_eq_ok_iff.1 hexplicit
  obtain rfl := hnone hplain
  rw [ofPath_of_explicit?_none hexplicit] at h
  exact ⟨hexplicit, h⟩

/-- **An annotated path has the slice between its first and its last variable as its target**, whatever the
service and the vocabulary are.  To any other path the explicit pass contributes nothing, and it is left to the
vocabulary. -/
theorem target_by_annotation (hkeyed : api.Keyed) (howned : api.MethodsOwned)
    (h : api.identifyTargets = .ok found) {key id : String} (hs : api.service? key = some s)
    (hid : id ∈ s.methods) (hm : api.method? id = some m) {k : Nat} {b : PathBinding}
    (hb : m.pathInfo.bindings[k]? = some b) :
    ∃ built t, found.method? id = some built ∧
      built.pathInfo.bindings[k]? = some { b with target := t } ∧
      (Annotated api m b.path → ∃ target, t = some target ∧
        (∀ words, ofPath api words s m b.path = .ok (some target)) ∧
        ∃ f l v, IsSlice api s b.path f l v target) ∧
      (¬ Annotated api m b.path → explicit? api s m b.path = .ok none ∧
        byVocabulary? api s m b.path (vocabulary api) = .ok t) := by
  obtain ⟨targets, htargets, hrecorded⟩ := recorded_of_identifyTargets hkeyed howned h hs hid hm
  obtain ⟨t, hfound, hassigned⟩ := getElem?_assign htargets hb
  exact ⟨m.targeted targets, t, hrecorded, hassigned, fun hannotated =>
    exists_slice_of_annotated hannotated hfound, fun hplain => byVocabulary?_of_not_annotated hplain hfound⟩

/-- A path with two annotated fields.  The word `start` is no collection, and nothing behind the second field is
part of a name. -/
def thingPath : PathTemplate :=
  { segments := [.literal "v1", .literal "projects", .bound { fieldPath := ["project"], segments := ["*"] },
      .literal "start", .bound { fieldPath := ["thing", "id"], segments := ["*"] }, .literal "log"] }

def thingService : Service :=
  { Service.new "Things" "google.cloud.compute.v1" with
    defaultHost := "compute.googleapis.com", methods := [".google.cloud.compute.v1.Things.Start"] }

def thingMethod : Method :=
  { Method.new thingService "Start" ".google.cloud.compute.v1.StartThing" ".google.cloud.compute.v1.Thing" with
    pathInfo.bindings := [{ verb := "POST", path := thingPath }] }

/-- Things of projects.  The request holds the thing, which holds its own name. -/
def things : Api :=
  let name (name : String) : Field :=
    { name, jsonName := name, kind := .string, resourceReference := some { kind := "compute/Thing" } }
  let thing := (Message.new "Thing" "google.cloud.compute.v1" none).addField (name "id")
  let request := ((Message.new "StartThing" "google.cloud.compute.v1" none).addField (name "project")).addField
    { name := "thing", jsonName := "thing", kind := .message, typeId := ".google.cloud.compute.v1.Thing",
      links.messageType := some ".google.cloud.compute.v1.Thing" }
  ((({ name := "compute", package := "google.cloud.compute.v1" } : Api).addMessage thing).addMessage
    request).addService { thingService with methods := [] } [thingMethod]

/-- The target of the path. -/
def thingTarget : TargetResource :=
  { fieldPaths := [["project"], ["thing", "id"]]
    template := "//compute.googleapis.com/projects/\x7bproject\x7d/start/\x7bthing.id\x7d" }

theorem methodsOwned_things : things.MethodsOwned := Api.methodsOwned_of_single rfl

theorem annotated_things : Annotated things thingMethod thingPath := by
  refine ⟨by decide, fun v hv => ?_⟩
  rcases List.mem_pair.1 hv with rfl | rfl
  · exact ⟨_, _, rfl, .here rfl, by decide⟩
  · exact ⟨_, _, rfl, .inside rfl rfl (.here rfl), by decide⟩

theorem target_by_annotation_things :
    things.Keyed ∧ things.MethodsOwned ∧ Annotated things thingMethod thingPath ∧
      ∃ found built, things.identifyTargets = .ok found ∧
        found.method? ".google.cloud.compute.v1.Things.Start" = some built ∧
        built.pathInfo.bindings[0]? = some { verb := "POST", path := thingPath, target := some thingTarget } ∧
        ofPath things [] thingService thingMethod thingPath = .ok (some thingTarget) ∧
        ∃ f l v, IsSlice things thingService thingPath f l v thingTarget := by
  have hkeyed : things.Keyed := by decide
  have hfound : things.identifyTargets =
      .ok (record things (".google.cloud.compute.v1.Things.Start", [some thingTarget])) := by rfl
  have hservice : things.service? ".google.cloud.compute.v1.Things" = some thingService := by rfl
  obtain ⟨built, t, hbuilt, hbinding, hslice, -⟩ := target_by_annotation hkeyed methodsOwned_things hfound
    hservice (List.mem_singleton_self _) rfl (k := 0) rfl
  obtain ⟨target, rfl, hwords, f, l, v, h⟩ := hslice annotated_things
  obtain rfl : target = thingTarget := by
    obtain rfl := Option.some.inj hbuilt
    exact (Option.some.inj (congrArg (fun b => b.bind (·.target)) hbinding)).symm
  exact ⟨hkeyed, methodsOwned_things, annotated_things, _, built, hfound, hbuilt, hbinding, hwords [],
    f, l, v, h⟩

end Target

end ApiModel
