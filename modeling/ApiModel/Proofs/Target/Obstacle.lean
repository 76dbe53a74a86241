import ApiModel.Proofs.Target.Annotation

/-!
# What keeps targets from being identified

The pass looks at every binding of every listed method before it records anything.  It fails if the request of
one of these methods is not registered, if a variable is bound to no field of the request, or if a binding that
has a target belongs to a service without a host.

Principal results:

* `Api.astray_iff` — a field path leads to a field, or it goes astray in one of four ways;
* `exists_ofPath_iff` — what is needed for one binding;
* `error_of_byVocabulary?` — behind the explicit pass only a host can be missing;
* `identifyTargets_fails_iff` — **the pass fails if and only if** there is an obstacle; a failure leaves the model
  as it was, and a success changes nothing but targets of listed methods.
-/

namespace ApiModel

/-! ## Field paths -/

/-- The field path leads nowhere: it is empty, or it has a name that is not that of a field of the message that
is reached so far, or a name behind a field that holds no registered message. -/
inductive Api.Astray (api : Api) : Message → List String → Prop where
  | empty {message : Message} : Astray api message []
  | missing {message : Message} {name : String} {rest : List String} (field : message.field? name = none) :
      Astray api message (name :: rest)
  | closed {message : Message} {name : String} {rest : List String} {f : Field}
      (field : message.field? name = some f) (holds : api.fieldMessage? f = none) (goesOn : rest ≠ []) :
      Astray api message (name :: rest)
  | inside {message inner : Message} {name : String} {rest : List String} {f : Field}
      (field : message.field? name = some f) (holds : api.fieldMessage? f = some inner) (goesOn : rest ≠ [])
      (path : Astray api inner rest) : Astray api message (name :: rest)

namespace Api

variable {api : Api} {message : Message} {names : List String}

theorem Astray.not_fieldAt (h : api.Astray message names) (f : Field) : ¬ api.FieldAt message names f := by
  induction h with
  | empty => exact fun hf => nomatch hf
  | missing hfield =>
    intro hf
    cases hf with
    | here hfound => cases hfield.symm.trans hfound
    | inside hfound _ _ => cases hfield.symm.trans hfound
  | closed hfield hholds hgoesOn =>
    intro hf
    cases hf with
    | here _ => exact hgoesOn rfl
    | inside hfound hinner _ =>
      obtain rfl := Option.some.inj (hfield.symm.trans hfound)
      cases hholds.symm.trans hinner
  | inside hfield hholds hgoesOn _ ih =>
    intro hf
    cases hf with
    | here _ => exact hgoesOn rfl
    | inside hfound hinner hrest =>
      obtain rfl := Option.some.inj (hfield.symm.trans hfound)
      obtain rfl := Option.some.inj (hholds.symm.trans hinner)
      exact ih hrest

theorem astray_or_fieldAt (message : Message) (names : List String) :
    api.Astray message names ∨ ∃ f, api.FieldAt message names f := by
  induction names generalizing message with
  | nil => exact .inl .empty
  | cons name rest ih =>
    cases hfield : message.field? name with
    | none => exact .inl (.missing hfield)
    | some f =>
      by_cases hrest : rest = []
      · subst hrest
        exact .inr ⟨f, .here hfield⟩
      · cases hholds : api.fieldMessage? f with
        | none => exact .inl (.closed hfield hholds hrest)
        | some inner =>
          rcases ih inner with hastray | ⟨g, hg⟩
          · exact .inl (.inside hfield hholds hrest hastray)
          · exact .inr ⟨g, .inside hfield hholds hg⟩

/-- **A field path goes astray if and only if** it leads to no field. -/
theorem astray_iff : api.Astray message names ↔ ¬ ∃ f, api.FieldAt message names f := by
  constructor
  · rintro h ⟨f, hf⟩
    exact h.not_fieldAt f hf
  · intro h
    exact (astray_or_fieldAt message names).resolve_right h

end Api

namespace Target

variable {api found : Api} {s : Service} {m : Method} {path : PathTemplate} {words : List String}

/-! ## Hosts -/

theorem exists_host_iff : (∃ H, host api s = .ok H) ↔ s.defaultHost ≠ "" ∨ api.name ≠ "" := by
  unfold host
  by_cases hdefault : s.defaultHost = ""
  · by_cases hname : api.name = ""
    · simp [hdefault, hname]
    · simp [hdefault, hname]
  · simp [hdefault]

theorem exists_template_iff {segments : List PathSegment} :
    (∃ name, template api s segments = .ok name) ↔ ∃ H, host api s = .ok H := by
  constructor
  · rintro ⟨name, h⟩
    obtain ⟨H, hH, -⟩ := bind_eq_ok_iff.1 h
    exact ⟨H, hH⟩
  · rintro ⟨H, hH⟩
    exact ⟨_, bind_eq_ok_iff.2 ⟨H, hH, rfl⟩⟩

/-- Nothing but the host can be missing for a template. -/
theorem error_of_template {segments : List PathSegment} {e : Defect}
    (h : template api s segments = .error e) : e = .missingHost s.id := by
  rcases bind_eq_error_iff.1 h with hhost | ⟨H, -, h⟩
  · unfold host at hhost
    split at hhost
    · cases hhost
    · split at hhost
      · cases hhost
      · exact (Except.error.inj hhost).symm
  · cases h

/-! ## One binding -/

/-- The variables of the pairs are variables of the path. -/
theorem mem_boundVariables_of_pair {p : Pair} (hp : p ∈ firstPairs words path.segments) :
    p.id ∈ path.boundVariables := by
  have hvariables : (variablesOf ((firstPairs words path.segments).flatMap Pair.segments)).Sublist
      path.boundVariables := (firstPairs_sublist words path.segments).filterMap _
  rw [variablesOf_pairs] at hvariables
  exact hvariables.subset (List.mem_map_of_mem hp)

/-- The binding has a target as soon as there is a host for it. -/
def HasTarget (api : Api) (words : List String) (s : Service) (m : Method) (path : PathTemplate) : Prop :=
  Annotated api m path ∨ NamedBy words s path

/-- **What is needed for one binding**: the request, a field for every variable, and a host if there is a
target. -/
theorem exists_ofPath_iff : (∃ t, ofPath api words s m path = .ok t) ↔
    ∃ input, api.message? m.inputTypeId = some input ∧
      (∀ v ∈ path.boundVariables, ∃ f, api.FieldAt input v.fieldPath f) ∧
      (HasTarget api words s m path → ∃ H, host api s = .ok H) := by
  constructor
  · rintro ⟨t, h⟩
    obtain ⟨e, hexplicit, -⟩ := bind_eq_ok_iff.1 h
    obtain ⟨input, hinput, hfields, htarget, -⟩ := explicit?_eq_ok_iff.1 hexplicit
    refine ⟨input, hinput, hfields, fun hhas => ?_⟩
    by_cases hannotated : Annotated api m path
    · obtain ⟨name, hname, -⟩ := htarget hannotated
      exact exists_template_iff.1 ⟨name, hname⟩
    · have hnamed := hhas.resolve_left hannotated
      have hvocabulary := (byVocabulary?_of_not_annotated hannotated h).2
      obtain ⟨_, name, -, -, hname, -⟩ := (byVocabulary?_eq_ok_iff.1 hvocabulary).1 (namedBy_iff.1 hnamed)
      exact exists_template_iff.1 ⟨name, hname⟩
  · rintro ⟨input, hinput, hfields, hhost⟩
    by_cases hannotated : Annotated api m path
    · obtain ⟨name, hname⟩ := exists_template_iff.2 (hhost (.inl hannotated))
      have hexplicit := explicit?_eq_ok_iff.2 ⟨input, hinput, hfields, fun _ => ⟨name, hname, rfl⟩,
        fun hplain => absurd hannotated hplain⟩
      exact ⟨_, bind_eq_ok_iff.2 ⟨_, hexplicit, rfl⟩⟩
    · have hexplicit : explicit? api s m path = .ok none := explicit?_eq_ok_iff.2
        ⟨input, hinput, hfields, fun hall => absurd hall hannotated, fun _ => rfl⟩
      rw [ofPath_of_explicit?_none hexplicit]
      by_cases hnamed : NamedBy words s path
      · obtain ⟨name, hname⟩ := exists_template_iff.2 (hhost (.inr hnamed))
        refine ⟨_, byVocabulary?_eq_ok_iff.2 ⟨fun _ => ⟨input, name, hinput, fun p hp => ?_, hname, rfl⟩,
          fun hplain => absurd (namedBy_iff.1 hnamed) hplain⟩⟩
        exact hfields p.id (mem_boundVariables_of_pair hp)
      · exact ⟨none, byVocabulary?_of_not_finds (mt namedBy_iff.2 hnamed)⟩

/-- **Behind the explicit pass only a host can be missing**: it has found the request and the fields already. -/
theorem error_of_byVocabulary? {e : Defect} (hexplicit : explicit? api s m path = .ok none)
    (h : byVocabulary? api s m path words = .error e) : e = .missingHost s.id := by
  obtain ⟨input, hinput, hfields, -⟩ := explicit?_eq_ok_iff.1 hexplicit
  have hinput := request_eq_ok_iff.2 hinput
  by_cases hfinds : Finds words s path
  · rw [byVocabulary?_of_finds hfinds] at h
    rcases bind_eq_error_iff.1 h with hrequest | ⟨input', hrequest, h⟩
    · cases hinput.symm.trans hrequest
    · obtain rfl := Except.ok.inj (hinput.symm.trans hrequest)
      have hbound : ∀ p ∈ firstPairs words path.segments, ∃ f, api.FieldAt input p.id.fieldPath f :=
        fun p hp => hfields p.id (mem_boundVariables_of_pair hp)
      have hpairs := (forM_boundField_eq_ok_iff (m := m)).2 hbound
      rcases bind_eq_error_iff.1 h with hno | ⟨_, -, h⟩
      · cases hpairs.symm.trans hno
      · rcases bind_eq_error_iff.1 h with htemplate | ⟨name, -, h⟩
        · exact error_of_template htemplate
        · cases h
  · rw [byVocabulary?_of_not_finds hfinds] at h
    cases h

/-! ## All bindings -/

theorem exists_ofMethod_iff : (∃ t, ofMethod api words s m = .ok t) ↔
    ∀ b ∈ m.pathInfo.bindings, ∃ t, ofPath api words s m b.path = .ok t := by
  rw [← exists_mapM_eq_ok_iff]
  constructor
  · rintro ⟨t, ht⟩
    exact ⟨t.2, (ofMethod_eq_ok_iff.1 ht).2⟩
  · rintro ⟨targets, htargets⟩
    exact ⟨(m.id, targets), ofMethod_eq_ok_iff.2 ⟨rfl, htargets⟩⟩

theorem exists_all_iff : (∃ targets, all api = .ok targets) ↔
    ∀ key s, api.service? key = some s → ∀ m ∈ api.methodsOf s,
      ∃ t, ofMethod api (vocabulary api) s m = .ok t := by
  constructor
  · rintro ⟨targets, h⟩ key s hs
    obtain ⟨byService, hbyService, -⟩ := bind_eq_ok_iff.1 h
    obtain ⟨own, -, hown⟩ := exists_result_of_mapM hbyService (IdMap.mem_values_iff.2 ⟨key, hs⟩)
    exact exists_mapM_eq_ok_iff.1 ⟨own, hown⟩
  · intro h
    obtain ⟨byService, hbyService⟩ := exists_mapM_eq_ok_iff.2 fun s hs => by
      obtain ⟨key, hkey⟩ := IdMap.mem_values_iff.1 hs
      exact exists_mapM_eq_ok_iff.2 (h key s hkey)
    exact ⟨_, bind_eq_ok_iff.2 ⟨byService, hbyService, rfl⟩⟩

/-- **The pass succeeds if and only if** it finds an answer for every binding of every listed method. -/
theorem exists_identifyTargets_iff : (∃ found, api.identifyTargets = .ok found) ↔
    ∀ key s, api.service? key = some s → ∀ m ∈ api.methodsOf s, ∀ b ∈ m.pathInfo.bindings,
      ∃ t, ofPath api (vocabulary api) s m b.path = .ok t := by
  simp only [← exists_ofMethod_iff, ← exists_all_iff]
  constructor
  · rintro ⟨found, h⟩
    obtain ⟨targets, htargets, -⟩ := identifyTargets_eq_ok_iff.1 h
    exact ⟨targets, htargets⟩
  · rintro ⟨targets, htargets⟩
    exact ⟨_, identifyTargets_eq_ok_iff.2 ⟨targets, htargets, rfl⟩⟩

/-- What keeps the targets of a method's bindings from being identified. -/
inductive Obstacle (api : Api) (s : Service) (m : Method) : Prop where
  /-- The request is not registered. -/
  | request (missing : api.message? m.inputTypeId = none)
  /-- A variable is bound to no field of the request. -/
  | fieldPath {input : Message} {b : PathBinding} {v : PathVariable}
      (request : api.message? m.inputTypeId = some input) (binding : b ∈ m.pathInfo.bindings)
      (bound : v ∈ b.path.boundVariables) (astray : api.Astray input v.fieldPath)
  /-- A binding has a target, but its service has no host. -/
  | host {b : PathBinding} (binding : b ∈ m.pathInfo.bindings)
      (target : HasTarget api (vocabulary api) s m b.path) (defaultHost : s.defaultHost = "")
      (name : api.name = "")

/-- With an obstacle no answer is found for some binding. -/
theorem Obstacle.exists_unanswered (h : Obstacle api s m) (hne : m.pathInfo.bindings ≠ []) :
    ∃ b ∈ m.pathInfo.bindings, ¬ ∃ t, ofPath api (vocabulary api) s m b.path = .ok t := by
  simp only [exists_ofPath_iff]
  cases h with
  | request hmissing =>
    obtain ⟨b, hb⟩ := List.exists_mem_of_ne_nil _ hne
    refine ⟨b, hb, ?_⟩
    rintro ⟨input, hinput, -⟩
    cases hmissing.symm.trans hinput
  | @fieldPath input b v hinput hb hv hastray =>
    refine ⟨b, hb, ?_⟩
    rintro ⟨other, hother, hfields, -⟩
    obtain rfl := Option.some.inj (hinput.symm.trans hother)
    exact Api.astray_iff.1 hastray (hfields v hv)
  | @host b hb htarget hdefault hname =>
    refine ⟨b, hb, ?_⟩
    rintro ⟨_, -, -, hhost⟩
    rcases exists_host_iff.1 (hhost htarget) with h | h
    · exact h hdefault
    · exact h hname

/-- Where no answer is found for a binding, there is an obstacle. -/
theorem obstacle_of_unanswered {b : PathBinding} (hb : b ∈ m.pathInfo.bindings)
    (hnone : ¬ ∃ t, ofPath api (vocabulary api) s m b.path = .ok t) : Obstacle api s m := by
  rw [exists_ofPath_iff] at hnone
  cases hinput : api.message? m.inputTypeId with
  | none => exact .request hinput
  | some input =>
    by_cases hfields : ∀ v ∈ b.path.boundVariables, ∃ f, api.FieldAt input v.fieldPath f
    · have hhost : HasTarget api (vocabulary api) s m b.path ∧ ¬ ∃ H, host api s = .ok H := by
        by_contra hboth
        exact hnone ⟨input, hinput, hfields, fun htarget => by_contra fun hno => hboth ⟨htarget, hno⟩⟩
      rw [exists_host_iff, not_or, not_not, not_not] at hhost
      exact .host hb hhost.1 hhost.2.1 hhost.2.2
    · simp only [not_forall] at hfields
      obtain ⟨v, hv, hnofield⟩ := hfields
      exact .fieldPath hinput hb hv (Api.astray_iff.2 hnofield)

/-! ## What the pass changes -/

/-- The method without targets. -/
def untargeted (m : Method) : Method :=
  { m with pathInfo.bindings := m.pathInfo.bindings.map ({ · with target := none }) }

/-- The models differ in targets of listed methods at most. -/
structure DiffersInTargets (api found : Api) : Prop where
  rest : { found with registry.methods := api.registry.methods } = api
  unlisted : ∀ id, (∀ key s, api.service? key = some s → id ∉ s.methods) →
    found.method? id = api.method? id
  targets : ∀ id, (found.method? id).map untargeted = (api.method? id).map untargeted

theorem untargeted_latestTargets (targets : List (String × List (Option TargetResource))) (id : String)
    (m : Method) : untargeted (latestTargets targets id m) = untargeted m := by
  refine Outcome.foldl_frame untargeted (fun m t => ?_) m targets
  split
  · unfold untargeted Method.targeted
    simp only [Api.map_assign]
  · rfl

theorem differsInTargets_of_identifyTargets (hkeyed : api.Keyed) (h : api.identifyTargets = .ok found) :
    DiffersInTargets api found := by
  obtain ⟨targets, hall, rfl⟩ := identifyTargets_eq_ok_iff.1 h
  have hlookup : ∀ id, (targets.foldl record api).method? id =
      (api.method? id).map (latestTargets targets id) := by
    intro id
    rw [foldl_record]
    exact IdMap.get?_map _ _ _
  refine ⟨by rw [foldl_record], fun id hunlisted => ?_, fun id => ?_⟩
  · -- every record is one for a method that some service lists
    have hother : ∀ t ∈ targets, t.1 ≠ id := by
      rintro t ht rfl
      obtain ⟨key, s, m, hs, hm, hmethod⟩ := mem_of_all hall ht
      obtain ⟨listed, hlisted, hget⟩ := List.mem_filterMap.1 hm
      have hid : t.1 = listed := (ofMethod_eq_ok_iff.1 hmethod).1.trans (hkeyed.methods listed m hget)
      exact hunlisted key s hs (hid ▸ hlisted)
    rw [hlookup]
    cases api.method? id with
    | none => rfl
    | some m =>
      rcases latestTargets_mem (m := m) (fun t ht hkey => absurd hkey (hother t ht)) with
        ⟨t, ht, hkey, -⟩ | ⟨hsame, -⟩
      · exact absurd hkey (hother t ht)
      · exact congrArg some hsame
  · rw [hlookup, Option.map_map]
    exact congrArg (Option.map · (api.method? id)) (funext (untargeted_latestTargets targets id))

/-- **The pass fails if and only if** some listed method with a binding has an obstacle.  A failure leaves the
model as it was, a success changes nothing but targets of listed methods, and the vocabulary never fails on a
field path. -/
theorem identifyTargets_fails_iff (hkeyed : api.Keyed) :
    ((∃ e, api.targetPass.defect = some e) ↔ ∃ key s id m, api.service? key = some s ∧ id ∈ s.methods ∧
      api.method? id = some m ∧ m.pathInfo.bindings ≠ [] ∧ Obstacle api s m) ∧
    (∀ e, api.targetPass.defect = some e → api.targetPass.state = api) ∧
    (api.targetPass.defect = none → DiffersInTargets api api.targetPass.state) ∧
    ∀ s m path words e, explicit? api s m path = .ok none →
      byVocabulary? api s m path words = .error e → e = .missingHost s.id := by
  refine ⟨?_, fun e => targetPass_of_defect, fun hnone => ?_, fun s m path words e => error_of_byVocabulary?⟩
  · have hfails : (∃ e, api.targetPass.defect = some e) ↔ ¬ ∃ found, api.identifyTargets = .ok found := by
      simp only [← Outcome.toExcept_eq_error_iff]
      exact exists_error_iff
    rw [hfails, exists_identifyTargets_iff]
    constructor
    · intro h
      by_contra hnone
      refine h fun key s hs m hm b hb => by_contra fun hunanswered => ?_
      obtain ⟨id, hid, hget⟩ := List.mem_filterMap.1 hm
      exact hnone ⟨key, s, id, m, hs, hid, hget, List.ne_nil_of_mem hb, obstacle_of_unanswered hb hunanswered⟩
    · rintro ⟨key, s, id, m, hs, hid, hm, hne, hobstacle⟩ h
      obtain ⟨b, hb, hunanswered⟩ := hobstacle.exists_unanswered hne
      exact hunanswered (h key s hs m (List.mem_filterMap.2 ⟨id, hid, hm⟩) b hb)
  · exact differsInTargets_of_identifyTargets hkeyed (Outcome.toExcept_eq_ok_iff.2 ⟨hnone, rfl⟩)

/-- The library without a name, so that its service has no host. -/
def namelessLibrary : Api := { library with name := "" }

theorem identifyTargets_fails_iff_library :
    namelessLibrary.Keyed ∧ (∃ e, namelessLibrary.targetPass.defect = some e) ∧
      namelessLibrary.targetPass.state = namelessLibrary ∧
      library.Keyed ∧ library.targetPass.defect = none ∧
      DiffersInTargets library library.targetPass.state := by
  have hnameless : namelessLibrary.Keyed := by decide
  have hkeyed : library.Keyed := by decide
  have hservice : ∃ s m, namelessLibrary.service? ".v1.Library" = some s ∧
      ".v1.Library.UpdateBook" ∈ s.methods ∧ namelessLibrary.method? ".v1.Library.UpdateBook" = some m ∧
      m.pathInfo.bindings ≠ [] ∧ Obstacle namelessLibrary s m := by
    refine ⟨_, _, rfl, List.mem_singleton_self _, rfl, List.cons_ne_nil _ _,
      .host (List.mem_singleton_self _) (.inl ⟨List.cons_ne_nil _ _, fun v hv => ?_⟩) rfl rfl⟩
    obtain rfl := List.mem_singleton.1 hv
    exact ⟨_, _, rfl, .inside rfl rfl (.here rfl), by decide⟩
  obtain ⟨hfails, hsame, -⟩ := identifyTargets_fails_iff hnameless
  obtain ⟨s, m, hobstacle⟩ := hservice
  obtain ⟨e, he⟩ := hfails.2 ⟨_, s, _, m, hobstacle⟩
  have hnone : library.targetPass.defect = none := rfl
  exact ⟨hnameless, ⟨e, he⟩, hsame e he, hkeyed, hnone, (identifyTargets_fails_iff hkeyed).2.2.1 hnone⟩

end Target

end ApiModel
