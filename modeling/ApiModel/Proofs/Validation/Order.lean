import ApiModel.Proofs.Validation.Nesting
import Mathlib.Data.List.Basic

/-!
# The order of the checks

Validation is a list of checks in a fixed order, and its answer is that of the first check that fails.
The services come first, each with its package and its methods; then the messages, each with its package,
its enumerations and, before the next message, those nested in it; and then the enumerations.

The order of the messages is the recursive one, whereas validation walks over a stack.  Where no message is
nested in itself the two agree.

Principal results:

* `checkMessages_eq_verdict` — the walk over pending messages makes the checks of each of them in turn;
* `validate_spec` — **validation is the verdict of the first check that fails in the recursive order**.
-/

namespace ApiModel

namespace Validation

/-! ## Checks -/

/-- A single check. -/
inductive Check where
  /-- An element is registered. -/
  | registered (kind : ElementKind) (id : String)
  /-- An element's package and its ID belong to the API's package. -/
  | belongs (kind : ElementKind) (id package : String)

namespace Check

/-- The check finds what it looks for. -/
def Passes (api : Api) : Check → Prop
  | .registered kind id => api.Registers kind id
  | .belongs _ id package =>
    api.package = "" ∨ package = api.package ∧ ∃ rest, id = "." ++ api.package ++ "." ++ rest

/-- What is wrong where the check fails. -/
def defect (api : Api) : Check → Defect
  | .registered kind id => .missingElement kind id
  | .belongs kind id package => .packageMismatch kind id package api.package

end Check

theorem inPackage_iff {package id : String} :
    inPackage package id = true ↔ ∃ rest, id = "." ++ package ++ "." ++ rest := by
  unfold inPackage
  rw [List.isPrefixOf_iff_prefix]
  constructor
  · rintro ⟨rest, hrest⟩
    refine ⟨String.ofList rest, String.toList_inj.1 ?_⟩
    rw [String.toList_append, String.toList_ofList, hrest]
  · rintro ⟨rest, rfl⟩
    exact ⟨rest.toList, String.toList_append.symm⟩

namespace Check

variable {api : Api}

theorem fitsPackage_iff {id package : String} : api.FitsPackage id package ↔
    api.package = "" ∨ package = api.package ∧ ∃ rest, id = "." ++ api.package ++ "." ++ rest := by
  unfold Api.FitsPackage
  rw [inPackage_iff]

instance (api : Api) : (c : Check) → Decidable (c.Passes api)
  | .registered kind id => inferInstanceAs (Decidable (api.Registers kind id))
  | .belongs _ id package =>
    decidable_of_iff (api.package = "" ∨ package = api.package ∧ inPackage api.package id = true)
      fitsPackage_iff

/-- The answer of checks in order: the defect of the first one that fails, if any. -/
def verdict (api : Api) (checks : List Check) : Except Defect Unit :=
  match checks.find? fun c => ¬ c.Passes api with
  | none => .ok ()
  | some c => .error (c.defect api)

theorem verdict_cons (c : Check) (rest : List Check) :
    verdict api (c :: rest) = if c.Passes api then verdict api rest else .error (c.defect api) := by
  unfold verdict
  rw [List.find?_cons]
  by_cases h : c.Passes api
  · simp [h]
  · simp [h]

/-- Further checks are made if the first ones pass. -/
theorem verdict_append (checks more : List Check) :
    verdict api (checks ++ more) = (do verdict api checks; verdict api more) := by
  induction checks with
  | nil => rfl
  | cons c rest ih =>
    rw [List.cons_append, verdict_cons, verdict_cons, ih]
    split <;> rfl

theorem verdict_singleton (c : Check) :
    verdict api [c] = if c.Passes api then .ok () else .error (c.defect api) :=
  verdict_cons c []

/-- Elements that are checked in order make their checks in order. -/
theorem forM_eq_verdict {check : String → Except Defect Unit} {checks : String → List Check}
    (h : ∀ id, check id = verdict api (checks id)) (ids : List String) :
    ids.forM check = verdict api (ids.flatMap checks) := by
  induction ids with
  | nil => rfl
  | cons id rest ih =>
    rw [List.forM, List.flatMap_cons, verdict_append, h, ih]

/-- An element that has to be registered, and the checks that follow if it is. -/
theorem require_eq_verdict {α : Type} {found : Option α} {kind : ElementKind} {id : String}
    (hfound : api.Registers kind id ↔ found.isSome) {more : α → Except Defect Unit}
    {checks : α → List Check} (h : ∀ a, more a = verdict api (checks a)) :
    (require found kind id >>= more) =
      verdict api (.registered kind id :: found.elim [] checks) := by
  rw [verdict_cons]
  cases found with
  | none =>
    rw [if_neg (by simp [Passes, hfound])]
    cases kind <;> rfl
  | some a =>
    rw [if_pos (by simp [Passes, hfound])]
    exact h a

theorem checkPackage_eq_verdict (kind : ElementKind) (id package : String) :
    checkPackage api.package kind id package = verdict api [.belongs kind id package] := by
  rw [verdict_singleton]
  split
  · rename_i h
    exact Api.checkPackage_eq_ok_iff.2 (fitsPackage_iff.2 h)
  · rename_i h
    have hnot : ¬ checkPackage api.package kind id package = .ok () := fun hok =>
      h (fitsPackage_iff.1 (Api.checkPackage_eq_ok_iff.1 hok))
    unfold checkPackage at hnot ⊢
    split
    · rename_i hcond
      exact absurd (if_pos hcond) hnot
    · rfl

end Check

end Validation

open Validation Validation.Check

namespace Api

variable {api : Api}

/-! ## The checks of an element -/

/-- An enumeration is registered and belongs to the package. -/
def enumChecks (api : Api) (id : String) : List Check :=
  .registered .enumeration id ::
    (api.enum? id).elim [] fun e => [.belongs .enumeration e.id e.package]

/-- A service is registered and belongs to the package, and its methods are registered. -/
def serviceChecks (api : Api) (id : String) : List Check :=
  .registered .service id ::
    (api.service? id).elim [] fun s =>
      .belongs .service s.id s.package :: s.methods.flatMap fun id => [.registered .method id]

/-- A message is registered and belongs to the package, and so do its enumerations. -/
def shallowChecks (api : Api) (id : String) : List Check :=
  .registered .message id ::
    (api.message? id).elim [] fun m =>
      .belongs .message m.id m.package :: m.enums.flatMap api.enumChecks

/-- The checks of a message, followed by those of each message nested in it. -/
def messageChecks (h : api.NestingAcyclic) (id : String) : List Check :=
  api.shallowChecks id ++
    match _hm : api.message? id with
    | none => []
    | some m => m.messages.attach.flatMap fun nested => messageChecks h nested.1
termination_by h.wellFounded.wrap id
decreasing_by exact ⟨m, _hm, nested.2⟩

/-- All checks in order. -/
def checksInOrder (h : api.NestingAcyclic) : List Check :=
  api.services.flatMap api.serviceChecks ++ api.messages.flatMap (messageChecks h) ++
    api.enums.flatMap api.enumChecks

/-- A message's own checks come first. -/
theorem exists_messageChecks (h : api.NestingAcyclic) (id : String) :
    ∃ deeper, messageChecks h id = api.shallowChecks id ++ deeper := by
  rw [messageChecks]
  exact ⟨_, rfl⟩

theorem messageChecks_of_some (h : api.NestingAcyclic) {id : String} {m : Message}
    (hm : api.message? id = some m) :
    messageChecks h id = api.shallowChecks id ++ m.messages.flatMap (messageChecks h) := by
  rw [messageChecks]
  split
  · rename_i hnone
    cases hm.symm.trans hnone
  · rename_i n hsome
    obtain rfl := Option.some.inj (hm.symm.trans hsome)
    rw [← List.flatMap_map, List.attach_map_subtype_val]

/-! ## What each step of validation checks -/

theorem checkEnum_eq_verdict (id : String) :
    checkEnum api id = verdict api (api.enumChecks id) :=
  require_eq_verdict .rfl fun e => checkPackage_eq_verdict .enumeration e.id e.package

theorem checkMethod_eq_verdict (id : String) :
    checkMethod api id = verdict api [.registered .method id] := by
  have h : checkMethod api id =
      verdict api (.registered .method id :: (api.method? id).elim [] fun _ => []) :=
    require_eq_verdict .rfl fun _ => rfl
  rw [h]
  cases api.method? id <;> rfl

theorem checkService_eq_verdict (id : String) :
    checkService api id = verdict api (api.serviceChecks id) := by
  refine require_eq_verdict .rfl fun s => ?_
  rw [← List.singleton_append, verdict_append, ← checkPackage_eq_verdict,
    ← forM_eq_verdict checkMethod_eq_verdict]

/-- The check of a message alone makes its own checks, and hands on the message. -/
theorem map_checkMessage (id : String) :
    (fun _ => ()) <$> checkMessage api id = verdict api (api.shallowChecks id) := by
  have hmore : ∀ m : Message,
      (do checkPackage api.package .message m.id m.package; m.enums.forM (checkEnum api)) =
        verdict api (.belongs .message m.id m.package :: m.enums.flatMap api.enumChecks) := by
    intro m
    rw [← List.singleton_append, verdict_append, ← checkPackage_eq_verdict,
      ← forM_eq_verdict checkEnum_eq_verdict]
  refine Eq.trans ?_ (require_eq_verdict .rfl hmore)
  simp only [checkMessage, map_bind, map_pure, bind_pure_unit]

/-! ## The walk over messages -/

/-- The walk over the pending messages answers for the checks. -/
def Answers (api : Api) (pending : List String) (checks : List Check) : Prop :=
  checkMessages api pending = some (verdict api checks)

/-- Messages that put their checks in front of those of what waits do so one after another. -/
theorem answers_append {ids : List String} {checks : String → List Check}
    (h : ∀ id ∈ ids, ∀ rest more, api.Answers rest more →
      api.Answers (id :: rest) (checks id ++ more)) {rest : List String} {more : List Check}
    (hrest : api.Answers rest more) :
    api.Answers (ids ++ rest) (ids.flatMap checks ++ more) := by
  induction ids with
  | nil => exact hrest
  | cons id others ih =>
    rw [List.flatMap_cons, List.append_assoc]
    exact h id (by simp) _ _ (ih fun other hother => h other (by simp [hother]))

/-- The walk makes the checks of a message, and then those of what waits. -/
theorem answers_messageChecks (h : api.NestingAcyclic) (id : String) (rest : List String)
    (more : List Check) (hrest : api.Answers rest more) :
    api.Answers (id :: rest) (messageChecks h id ++ more) := by
  induction id using h.wellFounded.induction generalizing rest more with
  | _ id ih =>
    unfold Answers
    rw [checkMessages_cons]
    cases hcheck : checkMessage api id with
    | error e =>
      obtain ⟨deeper, hdeeper⟩ := exists_messageChecks h id
      rw [hdeeper, List.append_assoc, verdict_append, ← map_checkMessage, hcheck]
      rfl
    | ok m =>
      have hm := (checkMessage_eq_ok_iff.1 hcheck).1
      rw [messageChecks_of_some h hm, List.append_assoc, verdict_append, ← map_checkMessage, hcheck]
      exact answers_append (fun nested hnested => ih nested ⟨m, hm, hnested⟩) hrest

/-- **The walk makes the checks of each pending message in turn.** -/
theorem checkMessages_eq_verdict (h : api.NestingAcyclic) (pending : List String) :
    checkMessages api pending = some (verdict api (pending.flatMap (messageChecks h))) := by
  have hnone : api.Answers [] [] := rfl
  have hall : api.Answers (pending ++ []) (pending.flatMap (messageChecks h) ++ []) :=
    answers_append (fun id _ => answers_messageChecks h id) hnone
  rwa [List.append_nil, List.append_nil] at hall

/-- **The walk ends**, with the answer of the checks. -/
theorem exists_walk (h : api.NestingAcyclic) (pending : List String) :
    ∃ n, (Walk.next api)^[n] (Walk.start pending) =
      .done (verdict api (pending.flatMap (messageChecks h))) := by
  rw [start_eq]
  exact checkMessages_eq_some_iff.1 (checkMessages_eq_verdict h pending)

/-! ## Validation -/

theorem validate_eq_verdict (h : api.NestingAcyclic) :
    api.validate = verdict api (checksInOrder h) := by
  unfold validate checksInOrder
  rw [verdict_append, verdict_append, checkMessages_eq_verdict h, Option.getD_some,
    ← forM_eq_verdict checkService_eq_verdict, ← forM_eq_verdict checkEnum_eq_verdict, bind_assoc]

/-- **Validation is the verdict of the first check that fails in the recursive order**, the walk over the
stack comes to the verdict of the messages, and a package check asks for the package and for an ID that
begins with it. -/
theorem validate_spec (h : api.NestingAcyclic) :
    api.validate = verdict api (checksInOrder h) ∧
      (∃ n, (Walk.next api)^[n] (Walk.start api.messages) =
        .done (verdict api (api.messages.flatMap (messageChecks h)))) ∧
      ∀ kind id package, checkPackage api.package kind id package = .ok () ↔
        api.package = "" ∨
          package = api.package ∧ ∃ rest, id = "." ++ api.package ++ "." ++ rest :=
  ⟨validate_eq_verdict h, exists_walk h api.messages, fun _ _ _ =>
    checkPackage_eq_ok_iff.trans fitsPackage_iff⟩

/-- The enumeration of a nested message is in another package, and so is the message that is next. -/
def misfiled : Api :=
  let job : Message := .new "Job" "v1" none
  let step : Message := .new "Step" "v1" (some job)
  ({ name := "jobs", package := "v1" } : Api)
    |>.addMessage job
    |>.addMessage step
    |>.addEnum (.new "State" "v2" (some step))
    |>.addMessage (.new "Task" "v2" none)

theorem validate_spec_misfiled : ∃ h : misfiled.NestingAcyclic,
    misfiled.validate = verdict misfiled (checksInOrder h) ∧
      misfiled.validate =
        .error (.packageMismatch .enumeration ".v1.Job.Step.State" "v2" "v1") := by
  have hacyclic : misfiled.NestingAcyclic := .of_rank String.length (by decide)
  exact ⟨hacyclic, (validate_spec hacyclic).1, rfl⟩

end Api

end ApiModel
