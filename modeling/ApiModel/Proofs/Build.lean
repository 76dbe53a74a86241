import ApiModel.Proofs.Resolved
import ApiModel.Proofs.Validation

/-!
# The analyses in their order

`Api.selected` is the model ahead of the second run of cross-referencing, `Api.documented` the one
ahead of validation.

Principal results:

* `analyse_eq_ok_iff` — the analyses succeed if and only if each of them does;
* `declared_of_analyse` — the model that is built declares what the configuration selects of what the
  raw model declares;
* `resolved_of_analyse`, `valid_of_analyse` — it is resolved and valid.
-/

namespace ApiModel

namespace Api

variable {c : Config} {raw api : Api}

/-- What the configuration selects of the model, once cross-referenced and labelled. -/
def selected (c : Config) (raw : Api) : Api :=
  (raw.crossReference.state.paginate c.paginationOverrides).labelRecursive.applySelection c.selection

/-- The selected model, cross-referenced again and with its documentation overridden. -/
def documented (c : Config) (raw : Api) : Outcome Api Defect :=
  (raw.selected c).crossReference.state.overrideDocumentations c.documentationOverrides

/-- The analyses that come behind cross-referencing, which meets no defect. -/
theorem analyse_of_crossReference (hfirst : raw.crossReference.defect = none)
    (hsecond : (raw.selected c).crossReference.defect = none) :
    raw.analyse c = do
      let api ← (raw.documented c).toExcept
      api.validate
      return (← api.identifyTargets).applyOverrides c := by
  have h₁ := Outcome.toExcept_eq_ok_iff.2 ⟨hfirst, rfl⟩
  have h₂ := Outcome.toExcept_eq_ok_iff.2 ⟨hsecond, rfl⟩
  unfold analyse
  rw [h₁]
  show (raw.selected c).crossReference.toExcept >>= _ = _
  rw [h₂]
  rfl

/-- The analyses succeed if and only if each of them does. -/
theorem analyse_eq_ok_iff :
    raw.analyse c = .ok api ↔
      raw.crossReference.defect = none ∧ (raw.selected c).crossReference.defect = none ∧
      (raw.documented c).defect = none ∧ (raw.documented c).state.validate = .ok () ∧
      ∃ found, (raw.documented c).state.identifyTargets = .ok found ∧
        found.applyOverrides c = api := by
  have hrest : ∀ o : Outcome Api Defect, (do
      let api ← o.toExcept
      api.validate
      return (← api.identifyTargets).applyOverrides c) = Except.ok api ↔
        o.defect = none ∧ o.state.validate = .ok () ∧
          ∃ found, o.state.identifyTargets = .ok found ∧ found.applyOverrides c = api := by
    intro o
    constructor
    · intro h
      obtain ⟨s, hs, h⟩ := bind_eq_ok_iff.1 h
      obtain ⟨hdefect, rfl⟩ := Outcome.toExcept_eq_ok_iff.1 hs
      obtain ⟨hvalidate, h⟩ := check_bind_eq_ok_iff.1 h
      obtain ⟨found, hfound, h⟩ := bind_eq_ok_iff.1 h
      exact ⟨hdefect, hvalidate, found, hfound, Except.ok.inj h⟩
    · rintro ⟨hdefect, hvalidate, found, hfound, rfl⟩
      refine bind_eq_ok_iff.2 ⟨o.state, Outcome.toExcept_eq_ok_iff.2 ⟨hdefect, rfl⟩, ?_⟩
      refine check_bind_eq_ok_iff.2 ⟨hvalidate, ?_⟩
      exact bind_eq_ok_iff.2 ⟨found, hfound, rfl⟩
  constructor
  · intro h
    have hfirst : raw.crossReference.defect = none := by
      obtain ⟨linked, hlinked, -⟩ := bind_eq_ok_iff.1 h
      exact (Outcome.toExcept_eq_ok_iff.1 hlinked).1
    have hsecond : (raw.selected c).crossReference.defect = none := by
      obtain ⟨linked, hlinked, h⟩ := bind_eq_ok_iff.1 h
      obtain ⟨-, rfl⟩ := Outcome.toExcept_eq_ok_iff.1 hlinked
      obtain ⟨relinked, hrelinked, -⟩ := bind_eq_ok_iff.1 h
      exact (Outcome.toExcept_eq_ok_iff.1 hrelinked).1
    rw [analyse_of_crossReference hfirst hsecond, hrest] at h
    exact ⟨hfirst, hsecond, h⟩
  · rintro ⟨hfirst, hsecond, h⟩
    rw [analyse_of_crossReference hfirst hsecond, hrest]
    exact h

/-! ## What is declared on the way -/

theorem declared_selected (c : Config) (raw : Api) :
    (raw.selected c).declared = raw.declared.applySelection c.selection := by
  rw [selected, declared_applySelection, declared_labelRecursive, declared_paginate,
    declared_crossReference]

theorem declared_documented (c : Config) (raw : Api) :
    (raw.documented c).state.declared = raw.declared.applySelection c.selection := by
  rw [documented, declared_overrideDocumentations, declared_crossReference, declared_selected]

/-- **The model that is built declares what is selected** of what the raw model declares. -/
theorem declared_of_analyse (h : raw.analyse c = .ok api) :
    api.declared = raw.declared.applySelection c.selection := by
  obtain ⟨-, -, -, -, found, hfound, rfl⟩ := analyse_eq_ok_iff.1 h
  rw [declared_applyOverrides, declared_identifyTargets hfound, declared_documented]

theorem resolved_of_analyse (h : raw.analyse c = .ok api) : api.Resolved := by
  obtain ⟨-, hsecond, -⟩ := analyse_eq_ok_iff.1 h
  have hselected : (raw.selected c).Resolved := crossReference_defect_eq_none_iff.1 hsecond
  rwa [← resolved_declared, declared_selected, ← declared_of_analyse h, resolved_declared]
    at hselected

theorem valid_of_analyse (h : raw.analyse c = .ok api) : api.Valid := by
  obtain ⟨-, -, -, hvalidate, -⟩ := analyse_eq_ok_iff.1 h
  have hdocumented := validate_eq_ok_iff.1 hvalidate
  rwa [← valid_declared, declared_documented, ← declared_of_analyse h, valid_declared]
    at hdocumented

end Api

theorem createModel_eq_ok_iff {ε : Type} {c : Config} {source : Except ε Api} {api : Api} :
    createModel c source = .ok api ↔ ∃ raw, source = .ok raw ∧ raw.analyse c = .ok api := by
  unfold createModel
  rw [bind_eq_ok_iff]
  simp only [mapError_eq_ok_iff]

end ApiModel
