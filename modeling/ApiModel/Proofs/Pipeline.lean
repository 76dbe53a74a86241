import ApiModel.Proofs.Build
import ApiModel.Proofs.Schema.Validity
import ApiModel.Proofs.Target
import ApiModel.Specification

/-!
# From a specification to a model

In a raw model that is resolved and valid, and whose services share no methods, cross-referencing and
validation meet no defect, whatever a configuration selects.

Principal results:

* `analyse_defects` — only the overrides of a configuration, the paths and the hosts can be wrong with
  such a model;
* `createModel_defects` — the raw model of every coherent schema is one, and only a bad path keeps it
  from being made.
-/

namespace ApiModel

/-- A documentation override that cannot be applied. -/
def Defect.OfOverride : Defect → Prop
  | .documentationOverride _ _ => True
  | _ => False

/-! ## Overrides -/

namespace Api

variable {c : Config} {raw : Api}

theorem ofOverride_of_overrideDocumentation {api : Api} {o : DocumentationOverride} {d : Defect}
    (h : (api.overrideDocumentation o).defect = some d) : d.OfOverride := by
  unfold overrideDocumentation at h
  dsimp only at h
  split at h
  · obtain rfl := Option.some.inj h
    trivial
  · split at h
    · obtain rfl := Option.some.inj h
      trivial
    · cases h

theorem ofOverride_of_overrideDocumentations {api : Api} {os : List DocumentationOverride}
    {d : Defect} (h : (api.overrideDocumentations os).defect = some d) : d.OfOverride := by
  unfold overrideDocumentations at h
  obtain ⟨o, -, api, ho⟩ := Outcome.exists_defect_of_fold h
  exact ofOverride_of_overrideDocumentation ho

/-! ## The analyses -/

theorem resolved_selected (hresolved : raw.Resolved) (howned : raw.MethodsOwned) (c : Config) :
    (raw.selected c).Resolved := by
  rw [← resolved_declared, declared_selected]
  exact resolved_applySelection (resolved_declared.2 hresolved) (methodsOwned_declared.2 howned)

theorem resolved_documented (hresolved : raw.Resolved) (howned : raw.MethodsOwned) (c : Config) :
    (raw.documented c).state.Resolved := by
  rw [← resolved_declared, declared_documented, ← declared_selected, resolved_declared]
  exact resolved_selected hresolved howned c

theorem valid_documented (hvalid : raw.Valid) (howned : raw.MethodsOwned) (c : Config) :
    (raw.documented c).state.Valid := by
  rw [← valid_declared, declared_documented]
  exact valid_applySelection (valid_declared.2 hvalid) (methodsOwned_declared.2 howned)

/-- **Only overrides, paths and hosts can be wrong with a resolved and valid model**: both runs of
cross-referencing and validation meet no defect. -/
theorem analyse_defects (hresolved : raw.Resolved) (hvalid : raw.Valid)
    (howned : raw.MethodsOwned) (c : Config) :
    raw.crossReference.defect = none ∧ (raw.selected c).crossReference.defect = none ∧
      (raw.documented c).state.validate = .ok () ∧
      ∀ d, raw.analyse c = .error d → d.OfOverride ∨ d.OfPath := by
  have hfirst : raw.crossReference.defect = none :=
    crossReference_defect_eq_none_iff.2 hresolved
  have hsecond : (raw.selected c).crossReference.defect = none :=
    crossReference_defect_eq_none_iff.2 (resolved_selected hresolved howned c)
  have hvalidate : (raw.documented c).state.validate = .ok () :=
    validate_eq_ok_iff.2 (valid_documented hvalid howned c)
  refine ⟨hfirst, hsecond, hvalidate, ?_⟩
  intro d h
  rw [analyse_of_crossReference hfirst hsecond] at h
  rcases bind_eq_error_iff.1 h with hoverride | ⟨api, hapi, h⟩
  · exact .inl (ofOverride_of_overrideDocumentations (Outcome.toExcept_eq_error_iff.1 hoverride))
  · obtain ⟨-, rfl⟩ := Outcome.toExcept_eq_ok_iff.1 hapi
    rcases bind_eq_error_iff.1 h with hcheck | ⟨_, -, h⟩
    · rw [hvalidate] at hcheck
      cases hcheck
    · rcases bind_eq_error_iff.1 h with htargets | ⟨_, -, h⟩
      · exact .inr (Target.ofPath_of_identifyTargets
          (resolved_documented hresolved howned c).methods htargets)
      · cases h

end Api

/-! ## Raw models -/

namespace Specification

variable {spec : Specification} {raw : Api}

/-- A service configuration names and describes the model, and declares nothing. -/
theorem exists_of_toApi (h : spec.toApi = .ok raw) :
    ∃ api, spec.schema.toApi spec.package = .ok api ∧ raw.declared = api.declared := by
  unfold toApi at h
  obtain ⟨api, hapi, h⟩ := bind_eq_ok_iff.1 h
  refine ⟨api, mapError_eq_ok_iff.1 hapi, ?_⟩
  obtain rfl := Except.ok.inj h
  cases spec.serviceConfig <;> rfl

theorem badPath_of_toApi {e : SpecificationError} (h : spec.toApi = .error e) :
    ∃ fault, e = .badPath fault ∧
      spec.schema.HasBadPath (spec.package.getD spec.schema.sourcePackage) fault := by
  unfold toApi at h
  rcases bind_eq_error_iff.1 h with hschema | ⟨_, -, h⟩
  · obtain ⟨fault, hfault, rfl⟩ := mapError_eq_error_iff.1 hschema
    exact ⟨fault, rfl, Schema.hasBadPath_of_toApi hfault⟩
  · cases h

/-- **For a coherent schema only bad paths, overrides and hosts can go wrong.**  Making the raw model
fails at a path of an HTTP rule that is no template; on the raw model neither run of cross-referencing
meets a defect and validation passes, whatever is selected, and building fails at a documentation
override, a field path or a host. -/
theorem createModel_defects (spec : Specification) (hcoherent : spec.schema.Coherent) :
    (∀ e, spec.toApi = .error e → ∃ fault, e = .badPath fault ∧
      spec.schema.HasBadPath (spec.package.getD spec.schema.sourcePackage) fault) ∧
    ∀ raw, spec.toApi = .ok raw → ∀ c : Config,
      raw.crossReference.defect = none ∧ (raw.selected c).crossReference.defect = none ∧
      (raw.documented c).state.validate = .ok () ∧
      ∀ e, createModel c spec.toApi = .error e →
        ∃ d, e = .defect d ∧ (d.OfOverride ∨ d.OfPath) := by
  refine ⟨fun e h => badPath_of_toApi h, ?_⟩
  intro raw h c
  obtain ⟨api, hapi, hdeclared⟩ := exists_of_toApi h
  have hresolved : raw.Resolved := by
    rw [← Api.resolved_declared, hdeclared, Api.resolved_declared]
    exact Schema.resolved_toApi hcoherent hapi
  have hvalid : raw.Valid := by
    rw [← Api.valid_declared, hdeclared, Api.valid_declared]
    exact Schema.valid_toApi hcoherent hapi
  have howned : raw.MethodsOwned := by
    rw [← Api.methodsOwned_declared, hdeclared, Api.methodsOwned_declared]
    exact Schema.methodsOwned_toApi hcoherent hapi
  obtain ⟨hfirst, hsecond, hvalidate, hdefects⟩ :=
    Api.analyse_defects hresolved hvalid howned c
  refine ⟨hfirst, hsecond, hvalidate, ?_⟩
  intro e he
  unfold createModel at he
  rw [h] at he
  obtain ⟨d, hd, rfl⟩ := mapError_eq_error_iff.1 he
  exact ⟨d, rfl, hdefects d hd⟩

/-- A package with a message, a message and an enumeration inside it, and a service. -/
def jobs : Specification where
  schema := .ofResolved [{
    name := "jobs.proto", package := "v1"
    messages := [{
      name := "Job"
      fields := [
        { name := "step", number := 1, type := .message "v1.Job.Step", oneofIndex := some 0 },
        { name := "state", number := 2, type := .enumeration "v1.Job.State" }]
      nested := [{ name := "Step" }]
      enums := [{ name := "State", values := [{ name := "NEW" }] }]
      oneofs := [{ name := "work" }] }]
    services := [{
      name := "Jobs"
      methods := [{ name := "Get", input := "v1.Job", output := "v1.Job" }] }] }]

/-- A configuration that skips the nested message and the only method. -/
def skipping : Config :=
  { format := "protobuf", source := "", skippedIds := [".v1.Job.Step", ".v1.Jobs.Get"] }

theorem createModel_defects_jobs :
    jobs.schema.Coherent ∧ ∃ raw, jobs.toApi = .ok raw ∧
      raw.crossReference.defect = none ∧ (raw.selected skipping).crossReference.defect = none ∧
      (raw.documented skipping).state.validate = .ok () ∧
      ∀ e, createModel skipping jobs.toApi = .error e →
        ∃ d, e = .defect d ∧ (d.OfOverride ∨ d.OfPath) := by
  have hcoherent : jobs.schema.Coherent := by decide
  obtain ⟨raw, hraw⟩ : ∃ raw, jobs.toApi = .ok raw := ⟨_, rfl⟩
  exact ⟨hcoherent, raw, hraw, (createModel_defects jobs hcoherent).2 raw hraw skipping⟩

end Specification

end ApiModel
