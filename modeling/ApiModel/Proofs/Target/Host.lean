import ApiModel.Proofs.Closed
import ApiModel.Proofs.Stable
import ApiModel.Proofs.Target.ResourceName

/-!
# The host in a template

Templates are made ahead of the overrides, so a host that is made of the name of the API is made of the
name that the source gives it.  An override of the name leaves such templates behind.

Principal results:

* `hosted_of_identifyTargets` — a target is hosted by the name of the model it is found in;
* `hosted_of_createModel` — **the targets of a model that was built are hosted by the name of the raw
  model**; by the name of the model itself when the service has a default host or the name is not
  overridden, and as far as slashes cannot hide a host, only then.
-/

namespace ApiModel

/-- The host of a service in an API with a name: the default host, or one made of the name. -/
def Service.hostIn (s : Service) (name : String) : String :=
  if s.defaultHost.isEmpty then name ++ ".googleapis.com" else s.defaultHost

/-- The template of the target begins with a host. -/
def TargetResource.HostedBy (t : TargetResource) (host : String) : Prop :=
  ∃ rest, t.template = "//" ++ host ++ "/" ++ rest

/-! ## Texts behind a host -/

/-- A text without a separator ends where the separator first stands. -/
theorem eq_of_append_separator {α : Type} {sep : α} {a b c d : List α} (ha : sep ∉ a) (hc : sep ∉ c)
    (h : a ++ sep :: b = c ++ sep :: d) : a = c := by
  induction a generalizing c with
  | nil =>
    cases c with
    | nil => rfl
    | cons x c =>
      obtain ⟨rfl, -⟩ := List.cons.inj h
      exact absurd (List.mem_cons_self ..) hc
  | cons x a ih =>
    cases c with
    | nil =>
      obtain ⟨rfl, -⟩ := List.cons.inj h
      exact absurd (List.mem_cons_self ..) ha
    | cons y c =>
      obtain ⟨rfl, htail⟩ := List.cons.inj h
      have heq : a = c := ih (fun hx => ha (List.mem_cons_of_mem _ hx))
        (fun hx => hc (List.mem_cons_of_mem _ hx)) htail
      rw [heq]

/-- A target has one host without a slash. -/
theorem TargetResource.HostedBy.unique {t : TargetResource} {H H' : String} (h : t.HostedBy H)
    (h' : t.HostedBy H') (hfree : '/' ∉ H.toList) (hfree' : '/' ∉ H'.toList) : H = H' := by
  obtain ⟨rest, hrest⟩ := h
  obtain ⟨rest', hrest'⟩ := h'
  have heq := congrArg String.toList (hrest.symm.trans hrest')
  simp only [String.toList_append, List.append_assoc, List.append_cancel_left_eq] at heq
  exact String.toList_inj.1 (eq_of_append_separator hfree hfree' heq)

namespace Service

variable {s : Service}

theorem hostIn_eq_iff {name name' : String} :
    s.hostIn name = s.hostIn name' ↔ s.defaultHost ≠ "" ∨ name = name' := by
  unfold hostIn
  by_cases hempty : s.defaultHost = ""
  · simp [hempty]
  · simp [hempty, String.isEmpty_iff]

theorem slash_not_mem_hostIn {name : String} (hempty : s.defaultHost = "")
    (hname : '/' ∉ name.toList) : '/' ∉ (s.hostIn name).toList := by
  unfold hostIn
  simp [hempty, hname]

end Service

namespace Target

variable {api found : Api} {s : Service} {t : TargetResource}

/-! ## Hosts of targets -/

theorem hostIn_of_host {H : String} (h : host api s = .ok H) : s.hostIn api.name = H := by
  unfold host at h
  unfold Service.hostIn
  cases hempty : s.defaultHost.isEmpty with
  | true =>
    simp only [hempty] at h ⊢
    split at h
    · contradiction
    · split at h
      · exact Except.ok.inj h
      · cases h
  | false =>
    simp only [hempty] at h ⊢
    exact Except.ok.inj h

theorem hostedBy_of_describes {input : Message} {path : PathTemplate} {segments : List PathSegment}
    (h : Describes api s input path segments t) : t.HostedBy (s.hostIn api.name) := by
  obtain ⟨H, hhost, htemplate⟩ := template_eq_ok_iff.1 h.template
  rw [hostIn_of_host hhost]
  cases segments with
  | nil => exact absurd h.fieldPaths h.fieldPaths_ne
  | cons x rest =>
    refine ⟨x.single.text ++ PathTemplate.text { segments := rest.map PathSegment.single }, ?_⟩
    rw [htemplate]
    simp [PathTemplate.text, String.join_cons, String.append_assoc]

/-- A target is hosted by the name of the model it is found in. -/
theorem hosted_of_identifyTargets (hkeyed : api.Keyed) (howned : api.MethodsOwned)
    (h : api.identifyTargets = .ok found) {i id : String} {m : Method} (hs : api.service? i = some s)
    (hid : id ∈ s.methods) (hm : found.method? id = some m) {b : PathBinding}
    (hb : b ∈ m.pathInfo.bindings) (ht : b.target = some t) : t.HostedBy (s.hostIn api.name) := by
  obtain ⟨_, _, _, _, -, -, -, hdescribes⟩ :=
    describes_of_identifyTargets hkeyed howned h hs hid hm hb ht
  exact hostedBy_of_describes hdescribes

end Target

namespace Api

variable {api raw : Api} {c : Config} {s : Selection}

/-! ## The build around the pass -/

theorem methodsOwned_applySelection (h : api.MethodsOwned) : (api.applySelection s).MethodsOwned := by
  intro i j a b ha hb id hida hidb
  rw [service?_applySelection] at ha hb
  split at ha
  · cases ha
  · split at hb
    · cases hb
    · obtain ⟨a', ha', rfl⟩ := Option.map_eq_some_iff.1 ha
      obtain ⟨b', hb', rfl⟩ := Option.map_eq_some_iff.1 hb
      exact h i j a' b' ha' hb' id (List.mem_filter.1 hida).1 (List.mem_filter.1 hidb).1

theorem name_documented (c : Config) (raw : Api) : (raw.documented c).state.name = raw.name := by
  have hpaginate : ∀ api : Api, (api.paginate c.paginationOverrides).name = api.name := by
    intro api
    unfold paginate
    exact Outcome.foldl_frame Api.name
      (fun api f => show (Pagination.record api f).name = api.name from rfl) api _
  have hdocument : ∀ api : Api,
      (api.overrideDocumentations c.documentationOverrides).state.name = api.name := by
    intro api
    refine Outcome.fold_frame Api.name (fun api o => ?_) api _
    unfold overrideDocumentation
    dsimp only
    split
    · rfl
    · split <;> rfl
  have hselected : (raw.selected c).name =
      (raw.crossReference.state.paginate c.paginationOverrides).name := rfl
  rw [documented, hdocument, name_crossReference, hselected, hpaginate, name_crossReference]

theorem keyed_documented (h : raw.Keyed) (c : Config) : (raw.documented c).state.Keyed := by
  rw [← keyed_declared, declared_documented]
  exact keyed_applySelection (keyed_declared.2 h) _

theorem methodsOwned_documented (h : raw.MethodsOwned) (c : Config) :
    (raw.documented c).state.MethodsOwned := by
  rw [← methodsOwned_declared, declared_documented]
  exact methodsOwned_applySelection (methodsOwned_declared.2 h)

/-- Overrides leave the bindings of methods alone. -/
theorem pathInfo_applyOverrides (api : Api) (c : Config) (id : String) :
    ((api.applyOverrides c).method? id).map (·.pathInfo) = (api.method? id).map (·.pathInfo) := by
  unfold applyOverrides
  cases c.nameOverride with
  | none => rfl
  | some name =>
    show Option.map _ ((api.registry.methods.map _).get? id) = _
    rw [IdMap.get?_map, Option.map_map]
    rfl

/-- The targets that the analyses leave are hosted by the name they start from. -/
theorem hosted_of_analyse (hkeyed : raw.Keyed) (howned : raw.MethodsOwned)
    (h : raw.analyse c = .ok api) {i id : String} {a : Service} {m : Method}
    (ha : api.service? i = some a) (hid : id ∈ a.methods) (hm : api.method? id = some m)
    {b : PathBinding} (hb : b ∈ m.pathInfo.bindings) {t : TargetResource} (ht : b.target = some t) :
    t.HostedBy (a.hostIn raw.name) := by
  have hdeclared : (raw.documented c).state.declared = api.declared := by
    rw [declared_documented, declared_of_analyse h]
  obtain ⟨-, -, -, -, found, hfound, rfl⟩ := analyse_eq_ok_iff.1 h
  -- the service and the method as they are when targets are identified
  obtain ⟨old, hold, hbare⟩ : ∃ old, (raw.documented c).state.service? i = some old ∧
      old.bare = a.bare :=
    IdMap.exists_of_map_eq (congrArg (fun api => api.registry.services) hdeclared) ha
  obtain ⟨n, hn, hpath⟩ : ∃ n, found.method? id = some n ∧ n.pathInfo = m.pathInfo := by
    have hlookup := pathInfo_applyOverrides found c id
    rw [hm] at hlookup
    exact Option.map_eq_some_iff.1 hlookup.symm
  have hmethods : old.bare.methods = a.bare.methods := by rw [hbare]
  have hdefault : old.bare.defaultHost = a.bare.defaultHost := by rw [hbare]
  have hown := Target.hosted_of_identifyTargets (keyed_documented hkeyed c)
    (methodsOwned_documented howned c) hfound hold (hmethods.symm ▸ hid) hn (hpath.symm ▸ hb) ht
  rw [name_documented] at hown
  unfold Service.hostIn at hown ⊢
  rwa [show old.defaultHost = a.defaultHost from hdefault] at hown

/-- **The targets of a model that was built are hosted by the name of the raw model.**  They are hosted
by the name of the model itself when the service has a default host or the name is not overridden; as
far as no name holds a slash, only then. -/
theorem hosted_of_createModel {ε : Type} (hkeyed : raw.Keyed) (howned : raw.MethodsOwned)
    (h : createModel c (.ok raw : Except ε Api) = .ok api) {i id : String} {a : Service} {m : Method}
    (ha : api.service? i = some a) (hid : id ∈ a.methods) (hm : api.method? id = some m)
    {b : PathBinding} (hb : b ∈ m.pathInfo.bindings) {t : TargetResource} (ht : b.target = some t) :
    t.HostedBy (a.hostIn raw.name) ∧
      (a.defaultHost ≠ "" ∨ api.name = raw.name → t.HostedBy (a.hostIn api.name)) ∧
      ('/' ∉ raw.name.toList → '/' ∉ api.name.toList → t.HostedBy (a.hostIn api.name) →
        a.defaultHost ≠ "" ∨ api.name = raw.name) := by
  obtain ⟨source, hsource, hanalyse⟩ := createModel_eq_ok_iff.1 h
  obtain rfl := Except.ok.inj hsource
  have hhosted := hosted_of_analyse hkeyed howned hanalyse ha hid hm hb ht
  refine ⟨hhosted, fun hcase => ?_, fun hraw hname hown => ?_⟩
  · rwa [Service.hostIn_eq_iff.2 hcase]
  · by_cases hempty : a.defaultHost = ""
    · have heq := hown.unique hhosted (Service.slash_not_mem_hostIn hempty hname)
        (Service.slash_not_mem_hostIn hempty hraw)
      exact Service.hostIn_eq_iff.1 heq
    · exact .inl hempty

/-- A configuration that may rename the model. -/
def namingConfig (name : Option String) : Config := { plainConfig with nameOverride := name }

/-- What is built of the library. -/
def builtLibrary (name : Option String) : Api :=
  (Target.record (Target.library.documented plainConfig).state
    (".v1.Library.UpdateBook", [some Target.bookTarget])).applyOverrides (namingConfig name)

theorem valid_library : (Target.library.documented plainConfig).state.Valid := by
  refine ⟨?_, ?_, ?_⟩
  · intro id hid
    obtain rfl : id = ".v1.Library" := List.mem_singleton.1 hid
    refine ⟨_, rfl, .inr ⟨rfl, rfl⟩, ?_⟩
    intro listed hlisted
    obtain rfl : listed = ".v1.Library.UpdateBook" := List.mem_singleton.1 hlisted
    rfl
  · intro id hid
    rcases List.mem_pair.1 hid with rfl | rfl
    · exact .intro _ rfl (.inr ⟨rfl, rfl⟩) (fun _ he => nomatch he) (fun _ hn => nomatch hn)
    · exact .intro _ rfl (.inr ⟨rfl, rfl⟩) (fun _ he => nomatch he) (fun _ hn => nomatch hn)
  · intro id hid
    exact nomatch hid

theorem createModel_library (name : Option String) :
    createModel (namingConfig name) (.ok Target.library : Except Unit Api) =
      .ok (builtLibrary name) := by
  have hfound : (Target.library.documented plainConfig).state.identifyTargets =
      .ok (Target.record (Target.library.documented plainConfig).state
        (".v1.Library.UpdateBook", [some Target.bookTarget])) := rfl
  have hanalyse : Target.library.analyse (namingConfig name) = .ok (builtLibrary name) :=
    analyse_eq_ok_iff.2 ⟨rfl, rfl, rfl, validate_eq_ok_iff.2 valid_library, _, hfound, rfl⟩
  exact createModel_eq_ok_iff.2 ⟨_, rfl, hanalyse⟩

theorem hosted_of_createModel_library :
    Target.library.Keyed ∧ Target.library.MethodsOwned ∧
      ∃ api a m b, createModel (namingConfig none) (.ok Target.library : Except Unit Api) = .ok api ∧
        api.service? ".v1.Library" = some a ∧ ".v1.Library.UpdateBook" ∈ a.methods ∧
        api.method? ".v1.Library.UpdateBook" = some m ∧ b ∈ m.pathInfo.bindings ∧
        b.target = some Target.bookTarget ∧ Target.bookTarget.HostedBy (a.hostIn api.name) := by
  have hkeyed : Target.library.Keyed := by decide
  have hhosted := hosted_of_createModel hkeyed Target.methodsOwned_library (createModel_library none)
    (i := ".v1.Library") rfl (List.mem_singleton_self _) rfl (List.mem_singleton_self _) rfl
  exact ⟨hkeyed, Target.methodsOwned_library, _, _, _, _, createModel_library none, rfl,
    List.mem_singleton_self _, rfl, List.mem_singleton_self _, rfl, hhosted.2.1 (.inr rfl)⟩

theorem not_hosted_bookTarget : ¬ Target.bookTarget.HostedBy "store.googleapis.com" := by
  rintro ⟨rest, hrest⟩
  have hthird := congrArg (·.toList[2]?) hrest
  simp [Target.bookTarget] at hthird

/-- Under an override of the name the template keeps the host that the raw model gave it. -/
theorem not_hosted_library :
    Target.library.Keyed ∧ Target.library.MethodsOwned ∧
      ∃ api a m b, createModel (namingConfig (some "store"))
          (.ok Target.library : Except Unit Api) = .ok api ∧
        api.service? ".v1.Library" = some a ∧ a.defaultHost = "" ∧ api.name = "store" ∧
        ".v1.Library.UpdateBook" ∈ a.methods ∧ api.method? ".v1.Library.UpdateBook" = some m ∧
        b ∈ m.pathInfo.bindings ∧ b.target = some Target.bookTarget ∧
        ¬ Target.bookTarget.HostedBy (a.hostIn api.name) := by
  exact ⟨by decide, Target.methodsOwned_library, _, _, _, _, createModel_library (some "store"), rfl,
    rfl, rfl, List.mem_singleton_self _, rfl, List.mem_singleton_self _, rfl, not_hosted_bookTarget⟩

end Api

end ApiModel
