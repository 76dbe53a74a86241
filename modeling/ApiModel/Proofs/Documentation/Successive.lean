import ApiModel.Proofs.Documentation.Override
import ApiModel.Proofs.Repeat

/-!
# Successive documentation overrides

Overrides are applied one after the other, and the first that is refused ends the run.  What was written before
it stays.  Overrides with different IDs write to different elements, so the order of such overrides does not
matter.

Principal results:

* `documentation?_overrideDocumentation` — one override as a change of each element's documentation;
* `overrideDocumentation_comm` — overrides with different IDs commute, and neither decides whether the other
  is refused;
* `overrideDocumentations_of_firstRefused` — the run ends at the first override that is refused;
* `overrideDocumentations_spec` — **the first refusal ends a run and keeps what was written before it; and
  overrides with different IDs give one result in every order, or fail in every order**.
-/

namespace ApiModel

/-! ## Runs in parts -/

namespace Outcome

variable {σ ε α : Type} {step : σ → α → Outcome σ ε} {s : σ} {as : List α}

/-- A run without a defect takes every step. -/
theorem fold_state_of_ok (h : (fold step s as).defect = none) :
    (fold step s as).state = as.foldl (fun s a => (step s a).state) s := by
  induction as generalizing s with
  | nil => rfl
  | cons a rest ih =>
    rw [fold_cons] at h ⊢
    cases hstep : (step s a).defect with
    | none =>
      rw [hstep] at h
      exact ih h
    | some e =>
      rw [hstep] at h
      cases h

/-- A run goes as far as each item can be taken in the state that those before it leave. -/
theorem fold_take_defect_eq_none {k : Nat}
    (h : ∀ j a, j < k → as[j]? = some a → (step (fold step s (as.take j)).state a).defect = none) :
    (fold step s (as.take k)).defect = none := by
  induction k with
  | zero => rfl
  | succ k ih =>
    have hfront := ih fun j a hj => h j a (Nat.lt_succ_of_lt hj)
    rw [List.take_add_one]
    cases ha : as[k]? with
    | none => simpa using hfront
    | some a =>
      have hstep := h k a k.lt_succ_self ha
      rw [fold_append, andThen_of_ok hfront, Option.toList_some, fold_cons, hstep]
      rfl

end Outcome

/-- The documentation with what an override replaces, or as it is if there is nothing to replace. -/
def DocumentationOverride.rewrite (o : DocumentationOverride) (doc : String) : String :=
  (replaceFirst? doc o.text o.replacement).getD doc

namespace Api

variable {api api' : Api} {a b o : DocumentationOverride} {os ps : List DocumentationOverride}

/-! ## What one override leaves -/

theorem undocumented_overrideDocumentation (api : Api) (o : DocumentationOverride) :
    (api.overrideDocumentation o).state.undocumented = api.undocumented := by
  rcases api.overrideDocumentation_cases o with ⟨x, doc, text, -, hdoc, -, hrun⟩ | ⟨-, fault, hrun⟩
  · rw [hrun]
    exact (redocumented_document hdoc text).rest
  · rw [hrun]

theorem element?_overrideDocumentation (api : Api) (o : DocumentationOverride) (id : String) :
    (api.overrideDocumentation o).state.registry.element? id = api.registry.element? id :=
  Registry.element?_congr (congrArg Api.registry (undocumented_overrideDocumentation api o)) id

/-- An override rewrites the documentation of the element that its ID finds. -/
theorem documentation?_overrideDocumentation (api : Api) (o : DocumentationOverride)
    (y : DocumentedElement) :
    (api.overrideDocumentation o).state.registry.documentation? y =
      (api.registry.documentation? y).map
        (if api.registry.element? o.id = some y then o.rewrite else id) := by
  rcases api.overrideDocumentation_cases o with
    ⟨x, doc, text, hx, hdoc, htext, hrun⟩ | ⟨hnone, fault, hrun⟩
  · have hrewrite : o.rewrite doc = text := by
      rw [DocumentationOverride.rewrite, htext, Option.getD_some]
    rw [hrun]
    dsimp only
    rw [Registry.documentation?_document]
    by_cases h : y = x
    · rw [h, if_pos rfl, if_pos hx, hdoc, Option.map_some, Option.map_some, hrewrite]
    · have hy : api.registry.element? o.id ≠ some y := fun hy => h (Option.some.inj (hy.symm.trans hx))
      rw [if_neg h, if_neg hy, Option.map_id, id]
  · rw [hrun]
    split
    · rename_i hy
      cases hdoc : api.registry.documentation? y with
      | none => rfl
      | some doc =>
        rw [Option.map_some, DocumentationOverride.rewrite, hnone y doc hy hdoc, Option.getD_none]
    · rw [Option.map_id, id]

/-- Models are equal if they are so without documentation and in the documentation of each element. -/
theorem eq_of_undocumented (h : api'.undocumented = api.undocumented)
    (hdoc : ∀ x, api'.registry.documentation? x = api.registry.documentation? x) : api' = api := by
  have hregistry : api'.registry = api.registry :=
    Registry.eq_of_undocumented (congrArg Api.registry h) hdoc
  calc api' = { api'.undocumented with registry := api'.registry } := rfl
    _ = { api.undocumented with registry := api.registry } := by rw [h, hregistry]
    _ = api := rfl

/-! ## Overrides with different IDs -/

/-- Overrides with different IDs do not write to one element. -/
theorem not_same_element (h : a.id ≠ b.id) (y : DocumentedElement) :
    ¬ (api.registry.element? a.id = some y ∧ api.registry.element? b.id = some y) :=
  fun ⟨ha, hb⟩ => h (Registry.element?_injective ha hb)

/-- **Overrides with different IDs commute.** -/
theorem overrideDocumentation_comm (api : Api) (h : a.id ≠ b.id) :
    ((api.overrideDocumentation a).state.overrideDocumentation b).state =
      ((api.overrideDocumentation b).state.overrideDocumentation a).state := by
  apply eq_of_undocumented
  · simp only [undocumented_overrideDocumentation]
  · intro y
    simp only [documentation?_overrideDocumentation, element?_overrideDocumentation, Option.map_map]
    by_cases ha : api.registry.element? a.id = some y
    · have hb : api.registry.element? b.id ≠ some y := fun hb => not_same_element h y ⟨ha, hb⟩
      rw [if_pos ha, if_neg hb]
      rfl
    · rw [if_neg ha]
      rfl

/-- An override is refused or not whatever was written to other elements. -/
theorem overrideDocumentation_defect_after (api : Api) (h : a.id ≠ b.id) :
    ((api.overrideDocumentation a).state.overrideDocumentation b).defect = none ↔
      (api.overrideDocumentation b).defect = none := by
  simp only [overrideDocumentation_defect_eq_none_iff, element?_overrideDocumentation]
  refine exists_congr fun x => exists_congr fun doc => and_congr_right fun hb => ?_
  have ha : api.registry.element? a.id ≠ some x := fun ha => not_same_element h x ⟨ha, hb⟩
  rw [documentation?_overrideDocumentation, if_neg ha, Option.map_id, id]

/-- A run of overrides with different IDs succeeds if each of them does by itself. -/
theorem overrideDocumentations_defect_eq_none_iff (hids : (os.map (·.id)).Nodup) :
    (api.overrideDocumentations os).defect = none ↔
      ∀ o ∈ os, (api.overrideDocumentation o).defect = none := by
  unfold overrideDocumentations
  induction os generalizing api with
  | nil => simp [Outcome.fold]
  | cons a rest ih =>
    obtain ⟨hnew, hrest⟩ := List.nodup_cons.1 hids
    have hafter : ∀ o ∈ rest, ((api.overrideDocumentation a).state.overrideDocumentation o).defect = none ↔
        (api.overrideDocumentation o).defect = none := by
      intro o ho
      apply overrideDocumentation_defect_after
      intro heq
      exact hnew (List.mem_map.2 ⟨o, ho, heq.symm⟩)
    rw [Outcome.fold_cons, List.forall_mem_cons]
    cases hstep : (api.overrideDocumentation a).defect with
    | none =>
      dsimp only
      rw [ih hrest, and_iff_right rfl]
      exact forall₂_congr hafter
    | some d => simp

/-- Where overrides with different IDs succeed, they do so in every order and give one result. -/
theorem overrideDocumentations_perm (hids : (os.map (·.id)).Nodup) (hperm : ps.Perm os)
    (hos : (api.overrideDocumentations os).defect = none) :
    api.overrideDocumentations ps = ⟨(api.overrideDocumentations os).state, none⟩ := by
  have hps : (api.overrideDocumentations ps).defect = none := by
    rw [overrideDocumentations_defect_eq_none_iff ((hperm.map _).nodup_iff.2 hids)]
    rw [overrideDocumentations_defect_eq_none_iff hids] at hos
    exact fun o ho => hos o (hperm.mem_iff.1 ho)
  have hcomm : ∀ a ∈ ps, ∀ b ∈ ps, ∀ api : Api,
      ((api.overrideDocumentation a).state.overrideDocumentation b).state =
        ((api.overrideDocumentation b).state.overrideDocumentation a).state := by
    intro a ha b hb api
    by_cases hab : a = b
    · rw [hab]
    · refine overrideDocumentation_comm api fun hid => hab ?_
      exact List.inj_on_of_nodup_map ((hperm.map _).nodup_iff.2 hids) ha hb hid
  have hstate : (api.overrideDocumentations ps).state = (api.overrideDocumentations os).state := by
    unfold overrideDocumentations at hps hos ⊢
    rw [Outcome.fold_state_of_ok hps, Outcome.fold_state_of_ok hos]
    exact hperm.foldl_eq' hcomm api
  calc api.overrideDocumentations ps
      = ⟨(api.overrideDocumentations ps).state, (api.overrideDocumentations ps).defect⟩ := rfl
    _ = ⟨(api.overrideDocumentations os).state, none⟩ := by rw [hstate, hps]

/-! ## The first refusal -/

/-- Of the overrides, the one with `k` others before it is the first that cannot be applied to what those
before it leave. -/
structure FirstRefused (api : Api) (os : List DocumentationOverride) (k : Nat)
    (o : DocumentationOverride) : Prop where
  found : os[k]? = some o
  before : ∀ j p, j < k → os[j]? = some p →
    ((api.overrideDocumentations (os.take j)).state.overrideDocumentation p).defect = none
  refused : ((api.overrideDocumentations (os.take k)).state.overrideDocumentation o).defect ≠ none

/-- The first refusal ends a run. -/
theorem overrideDocumentations_of_firstRefused {k : Nat} (h : api.FirstRefused os k o) :
    (api.overrideDocumentations (os.take k)).defect = none ∧ ∃ fault,
      api.overrideDocumentations os =
        ⟨(api.overrideDocumentations (os.take k)).state, some (.documentationOverride o.id fault)⟩ := by
  have hfront : (api.overrideDocumentations (os.take k)).defect = none :=
    Outcome.fold_take_defect_eq_none h.before
  obtain ⟨hk, ho⟩ := List.getElem?_eq_some_iff.1 h.found
  have hsplit : os = os.take k ++ o :: os.drop (k + 1) := by
    rw [← ho, ← List.drop_eq_getElem_cons hk, List.take_append_drop]
  obtain ⟨d, hd⟩ := Option.ne_none_iff_exists'.1 h.refused
  obtain ⟨hstate, fault, rfl⟩ := overrideDocumentation_refused hd
  refine ⟨hfront, fault, ?_⟩
  conv_lhs => rw [hsplit]
  unfold overrideDocumentations at *
  rw [Outcome.fold_append, Outcome.andThen_of_ok hfront, Outcome.fold_cons, hd, hstate]

/-- **The first refusal ends a run**: its defect carries the ID of the override that is refused, and what those
before it have written stays, and nothing else.  **The order does not matter** for overrides with different
IDs: they succeed in every order, with one result, or fail in every order. -/
theorem overrideDocumentations_spec (api : Api) (os : List DocumentationOverride) :
    (∀ k o, api.FirstRefused os k o →
      (api.overrideDocumentations (os.take k)).defect = none ∧ ∃ fault,
        api.overrideDocumentations os =
          ⟨(api.overrideDocumentations (os.take k)).state,
            some (.documentationOverride o.id fault)⟩) ∧
    ((os.map (·.id)).Nodup →
      (∃ final, ∀ ps, ps.Perm os → api.overrideDocumentations ps = ⟨final, none⟩) ∨
        ∀ ps, ps.Perm os → (api.overrideDocumentations ps).defect ≠ none) := by
  refine ⟨fun k o h => overrideDocumentations_of_firstRefused h, fun hids => ?_⟩
  by_cases hos : (api.overrideDocumentations os).defect = none
  · exact .inl ⟨_, fun ps hperm => overrideDocumentations_perm hids hperm hos⟩
  · refine .inr fun ps hperm hps => hos ?_
    have hback := overrideDocumentations_perm ((hperm.map _).nodup_iff.2 hids) hperm.symm hps
    rw [hback]

theorem overrideDocumentations_spec_handbook :
    let active : DocumentationOverride :=
      { id := ".v1.State.ACTIVE", text := "Active.", replacement := "In use." }
    let thing : DocumentationOverride :=
      { id := ".v1.Thing", text := "A [Thing]", replacement := "One [Thing]" }
    let absent : DocumentationOverride := { id := ".v1.Thing", text := "State", replacement := "state" }
    (handbook.FirstRefused [active, thing, absent] 2 absent ∧ ∃ fault,
      handbook.overrideDocumentations [active, thing, absent] =
        ⟨(handbook.overrideDocumentations [active, thing]).state,
          some (.documentationOverride ".v1.Thing" fault)⟩) ∧
    ([active, thing].map (·.id)).Nodup ∧
      ∃ final, ∀ ps, ps.Perm [active, thing] → handbook.overrideDocumentations ps = ⟨final, none⟩ := by
  intro active thing absent
  have hbefore : ∀ j < 2, ∀ p ∈ [active, thing, absent][j]?,
      ((handbook.overrideDocumentations ([active, thing, absent].take j)).state.overrideDocumentation
        p).defect = none := by decide +kernel
  have hrefused : handbook.FirstRefused [active, thing, absent] 2 absent :=
    ⟨rfl, fun j p hj hp => hbefore j hj p hp, by decide +kernel⟩
  have hids : ([active, thing].map (·.id)).Nodup := by decide
  have hall : (handbook.overrideDocumentations [active, thing]).defect = none := by decide +kernel
  refine ⟨⟨hrefused, ((overrideDocumentations_spec handbook _).1 2 absent hrefused).2⟩, hids, ?_⟩
  rcases (overrideDocumentations_spec handbook _).2 hids with hevery | hnone
  · exact hevery
  · exact absurd hall (hnone _ (List.Perm.refl _))

end Api

end ApiModel
