import ApiModel.Proofs.History
import ApiModel.Proofs.Validation.Order

/-!
# Nesting behind a history

The walk over the messages of a model remembers none that it has seen, so it relies on the way in which the
model came about.  A builder appends a message to the list of its parent and then registers it, with nothing
nested in it.  What was nested in a message of the same ID is gone then, and with it every way from the
message back to its parent: whatever gets a new edge leads to a leaf.

Principal results:

* `NestingAcyclic.graft` — edges to a leaf close no cycle;
* `nestingAcyclic_apply` — every operation keeps nesting without a cycle;
* `walk_ends_of_run` — **behind every history no message is nested in itself, and the walk ends**.
-/

namespace ApiModel

open Relation (TransGen)

open Validation

/-- What a builder adds comes without nested messages. -/
def Operation.NestsNothing : Operation → Prop
  | .addMessage m | .addDependencyMessage m => m.messages = []
  | _ => True

instance : (op : Operation) → Decidable op.NestsNothing
  | .addMessage m | .addDependencyMessage m => inferInstanceAs (Decidable (m.messages = []))
  | .addEnum _ | .addDependencyEnum _ | .addService _ _ | .addResourceDefinition _
  | .crossReference | .paginate _ | .labelRecursive | .applySelection _
  | .overrideDocumentations _ | .identifyTargets | .applyOverrides _ =>
    inferInstanceAs (Decidable True)

namespace Api

open Operation

variable {api other : Api}

/-! ## Edges of nesting -/

theorem NestingAcyclic.mono (h : api.NestingAcyclic)
    (hsub : ∀ id nested, other.Encloses id nested → api.Encloses id nested) :
    other.NestingAcyclic :=
  fun id hid => h id (TransGen.mono hsub id id hid)

/-- **Edges to a leaf close no cycle.** -/
theorem NestingAcyclic.graft (h : api.NestingAcyclic) {leaf : String}
    (hleaf : ∀ nested, ¬ other.Encloses leaf nested)
    (hedges : ∀ id nested, other.Encloses id nested → api.Encloses id nested ∨ nested = leaf) :
    other.NestingAcyclic := by
  -- a path that comes to the leaf ends there, and any other has no edge that is new
  have hpath : ∀ {id nested : String}, TransGen other.Encloses id nested →
      TransGen api.Encloses id nested ∨ nested = leaf := by
    intro id nested hnested
    induction hnested with
    | single hstep => exact (hedges _ _ hstep).imp_left .single
    | tail _ hstep ih =>
      rcases ih with hold | rfl
      · exact (hedges _ _ hstep).imp_left hold.tail
      · exact absurd hstep (hleaf _)
  intro id hid
  rcases hpath hid with hold | rfl
  · exact h id hold
  · obtain ⟨nested, hstep, -⟩ := TransGen.head'_iff.1 hid
    exact hleaf nested hstep

theorem encloses_declared {id nested : String} :
    api.declared.Encloses id nested ↔ api.Encloses id nested := by
  unfold Encloses
  rw [message?_declared]
  cases api.message? id with
  | none => simp
  | some m => simp [Message.bare]

/-- What is declared decides. -/
theorem NestingAcyclic.of_declared (h : api.NestingAcyclic)
    (hdeclared : other.declared = api.declared) : other.NestingAcyclic := by
  refine h.mono fun id nested hnested => ?_
  rw [← encloses_declared, ← hdeclared]
  exact encloses_declared.2 hnested

/-! ## Builders -/

/-- A message that is listed at its parent is the only new one that is nested in another. -/
theorem encloses_listMessage {m : Message} {id nested : String}
    (h : (api.listMessage m).Encloses id nested) : api.Encloses id nested ∨ nested = m.id := by
  obtain ⟨p, hp, hnested⟩ := h
  rw [(nests_listMessage api m).lookup] at hp
  obtain ⟨q, hq, rfl⟩ := Option.map_eq_some_iff.1 hp
  by_cases hparent : m.parent = some id
  · rw [if_pos hparent] at hnested
    rcases List.mem_append.1 hnested with hold | hnew
    · exact .inl ⟨q, hq, hold⟩
    · exact .inr (List.mem_singleton.1 hnew)
  · rw [if_neg hparent] at hnested
    exact .inl ⟨q, hq, hnested⟩

/-- A message that is registered with nothing nested in it is a leaf, and other messages stay. -/
theorem nestingAcyclic_register {listed : Api} {m : Message} (h : api.NestingAcyclic)
    (hm : m.messages = [])
    (hlisted : ∀ id nested, listed.Encloses id nested → api.Encloses id nested ∨ nested = m.id) :
    (listed.addDependencyMessage m).NestingAcyclic := by
  have hleaf : ∀ nested, ¬ (listed.addDependencyMessage m).Encloses m.id nested := by
    rintro nested ⟨p, hp, hnested⟩
    rw [message?_addDependencyMessage, if_pos rfl] at hp
    obtain rfl := Option.some.inj hp
    rw [hm] at hnested
    cases hnested
  refine h.graft hleaf fun id nested hedge => ?_
  have hid : id ≠ m.id := by
    rintro rfl
    exact hleaf nested hedge
  obtain ⟨p, hp, hnested⟩ := hedge
  rw [message?_addDependencyMessage, if_neg hid] at hp
  exact hlisted id nested ⟨p, hp, hnested⟩

theorem encloses_listEnum {e : Enumeration} {id nested : String}
    (h : (api.listEnum e).Encloses id nested) : api.Encloses id nested := by
  obtain ⟨p, hp, hnested⟩ := h
  rw [(nests_listEnum api e).lookup] at hp
  obtain ⟨q, hq, rfl⟩ := Option.map_eq_some_iff.1 hp
  refine ⟨q, hq, ?_⟩
  split at hnested <;> exact hnested

/-! ## Selections -/

theorem encloses_applySelection {s : Selection} {id nested : String}
    (h : (api.applySelection s).Encloses id nested) : api.Encloses id nested := by
  obtain ⟨p, hp, hnested⟩ := h
  rw [message?_applySelection] at hp
  obtain ⟨m, hm, rfl⟩ := Option.map_eq_some_iff.1 hp
  exact ⟨m, hm, List.mem_of_mem_filter hnested⟩

/-! ## Histories -/

/-- **Every operation keeps nesting without a cycle.** -/
theorem nestingAcyclic_apply (h : api.NestingAcyclic) {op : Operation} (hop : op.NestsNothing) :
    (op.apply api).NestingAcyclic := by
  cases op with
  | addMessage m => exact nestingAcyclic_register h hop fun _ _ => encloses_listMessage
  | addDependencyMessage m => exact nestingAcyclic_register h hop fun _ _ => .inl
  | addEnum e => exact h.mono fun _ _ hnested => encloses_listEnum hnested
  | addDependencyEnum e => exact h.mono fun _ _ hnested => hnested
  | addService s methods => exact h.mono fun _ _ hnested => hnested
  | addResourceDefinition r => exact h.mono fun _ _ hnested => hnested
  | crossReference => exact h.of_declared (declared_crossReference api)
  | paginate overrides => exact h.of_declared (declared_paginate api overrides)
  | labelRecursive => exact h.of_declared (declared_labelRecursive api)
  | applySelection s => exact h.mono fun _ _ hnested => encloses_applySelection hnested
  | overrideDocumentations overrides =>
    exact h.of_declared (declared_overrideDocumentations api overrides)
  | identifyTargets => exact h.of_declared (declared_targetPass api)
  | applyOverrides c => exact h.of_declared (declared_applyOverrides api c)

theorem nestingAcyclic_of_run (h : api.NestingAcyclic) {ops : List Operation}
    (hops : ∀ op ∈ ops, op.NestsNothing) : (run api ops).NestingAcyclic := by
  induction ops generalizing api with
  | nil => exact h
  | cons op ops ih =>
    rw [List.forall_mem_cons] at hops
    exact ih (nestingAcyclic_apply h hops.1) hops.2

theorem nestingAcyclic_new (name package : String) :
    ({ name, package } : Api).NestingAcyclic := by
  refine .of_rank String.length fun e he => ?_
  cases he

/-- **Behind every history no message is nested in itself, and the walk ends**, whatever the messages that
it starts with. -/
theorem walk_ends_of_run (name package : String) {ops : List Operation}
    (hops : ∀ op ∈ ops, op.NestsNothing) :
    (run { name, package } ops).NestingAcyclic ∧
      ∀ pending, ∃ n verdict,
        (Walk.next (run { name, package } ops))^[n] (Walk.start pending) = .done verdict ∧
          checkMessages (run { name, package } ops) pending = some verdict := by
  have hacyclic := nestingAcyclic_of_run (nestingAcyclic_new name package) hops
  refine ⟨hacyclic, fun pending => ?_⟩
  obtain ⟨n, hn⟩ := exists_walk hacyclic pending
  exact ⟨n, _, hn, checkMessages_eq_verdict hacyclic pending⟩

/-- Two messages that are each the other's parent, one that is its own, and analyses behind them. -/
def tangledHistory : List Operation := [
  .addMessage (.new "Job" "v1" none),
  .addMessage { Message.new "Step" "v1" none with parent := some ".v1.Job" },
  .addMessage { Message.new "Job" "v1" none with parent := some ".v1.Step" },
  .addMessage (.new "Loop" "v1" none),
  .addMessage { Message.new "Loop" "v1" none with parent := some ".v1.Loop" },
  .addDependencyMessage { Message.new "Far" "v2" none with parent := some ".v1.Job" },
  .addEnum (.new "State" "v1" (some (.new "Job" "v1" none))),
  .addService (.new "Jobs" "v1") [.new (.new "Jobs" "v1") "Get" ".v1.Job" ".v1.Job"],
  .crossReference,
  .labelRecursive,
  .applySelection { skipped := [".v1.Far"], included := [] }]

theorem walk_ends_of_run_tangled :
    (∀ op ∈ tangledHistory, op.NestsNothing) ∧
      (run { name := "jobs", package := "v1" } tangledHistory).NestingAcyclic ∧
      (run { name := "jobs", package := "v1" } tangledHistory).messagesAt (some ".v1.Step") =
        [".v1.Job"] ∧
      (run { name := "jobs", package := "v1" } tangledHistory).messagesAt (some ".v1.Job") = [] ∧
      (run { name := "jobs", package := "v1" } tangledHistory).messagesAt (some ".v1.Loop") = [] := by
  have hnothing : ∀ op ∈ tangledHistory, op.NestsNothing := by decide
  exact ⟨hnothing, (walk_ends_of_run "jobs" "v1" hnothing).1, rfl, rfl, rfl⟩

end Api

end ApiModel
