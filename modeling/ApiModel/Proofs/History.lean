import ApiModel.Proofs.Builder
import ApiModel.Proofs.Declared

/-!
# The history of a model

A model starts empty.  Builders put elements into it and analyses run on it, in any order and as often
as one likes; an analysis that fails leaves behind what it did up to that point.

Principal results:

* `consistent_apply` — every operation keeps a model consistent;
* `consistent_run` — **a model is consistent behind every history**.
-/

namespace ApiModel

/-! ## Operations -/

/-- What may happen to a model. -/
inductive Operation where
  | addMessage (m : Message)
  | addDependencyMessage (m : Message)
  | addEnum (e : Enumeration)
  | addDependencyEnum (e : Enumeration)
  | addService (s : Service) (methods : List Method)
  | addResourceDefinition (r : Resource)
  | crossReference
  | paginate (overrides : List PaginationOverride)
  | labelRecursive
  | applySelection (s : Selection)
  | overrideDocumentations (overrides : List DocumentationOverride)
  | identifyTargets
  | applyOverrides (c : Config)

namespace Operation

/-- The model that an operation leaves behind, be it complete or not. -/
def apply (api : Api) : Operation → Api
  | .addMessage m => api.addMessage m
  | .addDependencyMessage m => api.addDependencyMessage m
  | .addEnum e => api.addEnum e
  | .addDependencyEnum e => api.addDependencyEnum e
  | .addService s methods => api.addService s methods
  | .addResourceDefinition r => api.addResourceDefinition r
  | .crossReference => api.crossReference.state
  | .paginate overrides => api.paginate overrides
  | .labelRecursive => api.labelRecursive
  | .applySelection s => api.applySelection s
  | .overrideDocumentations overrides => (api.overrideDocumentations overrides).state
  | .identifyTargets => api.targetPass.state
  | .applyOverrides c => api.applyOverrides c

/-- What a builder adds is new.  Resources may come again, and analyses may always run. -/
def Admissible (api : Api) : Operation → Prop
  | .addMessage m => api.NewMessage m
  | .addDependencyMessage m => api.NewMessage m
  | .addEnum e => api.registry.enums.contains e.id = false
  | .addDependencyEnum e => api.registry.enums.contains e.id = false
  | .addService s methods => api.NewService s methods
  | _ => True

instance (api : Api) (op : Operation) : Decidable (op.Admissible api) :=
  match op with
  | .addMessage m | .addDependencyMessage m => inferInstanceAs (Decidable (api.NewMessage m))
  | .addEnum e | .addDependencyEnum e =>
    inferInstanceAs (Decidable (api.registry.enums.contains e.id = false))
  | .addService s methods => inferInstanceAs (Decidable (api.NewService s methods))
  | .addResourceDefinition _ | .crossReference | .paginate _ | .labelRecursive | .applySelection _
  | .overrideDocumentations _ | .identifyTargets | .applyOverrides _ =>
    inferInstanceAs (Decidable True)

/-- Runs operations one after another. -/
def run (api : Api) (ops : List Operation) : Api := ops.foldl apply api

/-- Each operation is admissible when its turn comes. -/
def AllAdmissible : Api → List Operation → Prop
  | _, [] => True
  | api, op :: ops => op.Admissible api ∧ AllAdmissible (op.apply api) ops

instance decidableAllAdmissible : (api : Api) → (ops : List Operation) →
    Decidable (AllAdmissible api ops)
  | _, [] => inferInstanceAs (Decidable True)
  | api, op :: ops =>
    have := decidableAllAdmissible (op.apply api) ops
    inferInstanceAs (Decidable (op.Admissible api ∧ AllAdmissible (op.apply api) ops))

end Operation

namespace Api

open Operation

variable {api : Api}

/-- **Every operation keeps a model consistent.** -/
theorem consistent_apply (h : api.Consistent) {op : Operation} (hop : op.Admissible api) :
    (op.apply api).Consistent := by
  cases op with
  | addMessage m => exact consistent_addMessage h hop
  | addDependencyMessage m => exact consistent_addDependencyMessage h hop
  | addEnum e => exact consistent_addEnum h hop
  | addDependencyEnum e => exact consistent_addDependencyEnum h hop
  | addService s methods => exact consistent_addService h hop
  | addResourceDefinition r => exact consistent_addResourceDefinition h r
  | crossReference => exact h.of_declared (declared_crossReference api)
  | paginate overrides => exact h.of_declared (declared_paginate api overrides)
  | labelRecursive => exact h.of_declared (declared_labelRecursive api)
  | applySelection s => exact consistent_applySelection h s
  | overrideDocumentations overrides =>
    exact h.of_declared (declared_overrideDocumentations api overrides)
  | identifyTargets => exact h.of_declared (declared_targetPass api)
  | applyOverrides c => exact h.of_declared (declared_applyOverrides api c)

theorem listAt_new (name package : String) (items : Message → List String) :
    ({ name, package } : Api).listAt [] items = fun _ => [] := by
  funext place
  cases place <;> rfl

theorem consistent_new (name package : String) : ({ name, package } : Api).Consistent where
  keyed := ⟨IdMap.keyedBy_empty, IdMap.keyedBy_empty, IdMap.keyedBy_empty, IdMap.keyedBy_empty,
    IdMap.keyedBy_empty⟩
  services := by
    have hnone : ∀ id a, ({ name, package } : Api).service? id ≠ some a := by simp [service?]
    refine ⟨.nil, fun id => ?_, fun id a ha => absurd ha (hnone id a),
      fun i j a b ha => absurd ha (hnone i a), fun id => ?_⟩
    · simp [IdMap.contains]
    · simp [IdMap.contains, service?]
  messages := by
    have hnone : ({ name, package } : Api).messagesAt = fun _ => [] := listAt_new name package _
    rw [hnone]
    exact .of_parent (fun _ => .nil) (by simp)
  enums := by
    have hnone : ({ name, package } : Api).enumsAt = fun _ => [] := listAt_new name package _
    rw [hnone]
    exact .of_parent (fun _ => .nil) (by simp)

theorem consistent_of_run (h : api.Consistent) {ops : List Operation}
    (hops : AllAdmissible api ops) : (run api ops).Consistent := by
  induction ops generalizing api with
  | nil => exact h
  | cons op ops ih => exact ih (consistent_apply h hops.1) hops.2

/-- **A model is consistent behind every history** that starts from the empty model. -/
theorem consistent_run (name package : String) {ops : List Operation}
    (hops : AllAdmissible { name, package } ops) : (run { name, package } ops).Consistent :=
  consistent_of_run (consistent_new name package) hops

/-- A message with a nested message and enumeration, a service, and analyses in between of which one
fails. -/
def jobHistory : List Operation := [
  .addMessage (.new "Job" "v1" none),
  .addMessage (.new "Step" "v1" (some (.new "Job" "v1" none))),
  .addEnum (.new "State" "v1" (some (.new "Job" "v1" none))),
  .crossReference,
  .addService (.new "Jobs" "v1") [.new (.new "Jobs" "v1") "Get" ".v1.Job" ".v1.Job"],
  .applySelection { skipped := [".v1.Job.Step"], included := [] },
  .overrideDocumentations [{ id := ".v1.Task", text := "task", replacement := "job" }],
  .identifyTargets]

theorem consistent_run_jobs :
    AllAdmissible { name := "jobs", package := "v1" } jobHistory ∧
      (run { name := "jobs", package := "v1" } jobHistory).Consistent ∧
      (run { name := "jobs", package := "v1" } jobHistory).messagesAt (some ".v1.Job") = [] ∧
      (run { name := "jobs", package := "v1" } jobHistory).enumsAt (some ".v1.Job") =
        [".v1.Job.State"] := by
  have hadmissible : AllAdmissible { name := "jobs", package := "v1" } jobHistory := by decide
  exact ⟨hadmissible, consistent_run "jobs" "v1" hadmissible, rfl, rfl⟩

end Api

end ApiModel
