import ApiModel.Proofs.Validation
import Mathlib.Data.Set.Finite.Basic
import Mathlib.Logic.Relation
import Mathlib.Order.WellFounded

/-!
# Nesting, and the walk over a stack

A registered message encloses the messages that it lists as nested in it.  Validation walks through the
messages with a stack that holds those that wait, and it remembers none that it has seen: a round takes the
message on top, checks it, and puts what is nested in it on top, last one first.

Principal results:

* `NestingAcyclic.wellFounded` — if no message is nested in itself, nesting is well-founded;
* `checkMessages_eq_some_iff` — **the check of pending messages is the verdict that the walk arrives at**,
  and where it has none the walk goes on for ever.
-/

namespace ApiModel

open Relation (TransGen)

namespace Api

variable {api : Api}

/-! ## Nesting -/

/-- The registered message lists another one as nested in it. -/
def Encloses (api : Api) (id nested : String) : Prop :=
  ∃ m, api.message? id = some m ∧ nested ∈ m.messages

/-- No message is nested in itself, directly or not. -/
def NestingAcyclic (api : Api) : Prop := ∀ id, ¬ TransGen api.Encloses id id

/-- Nesting along which a rank rises has no cycle. -/
theorem NestingAcyclic.of_rank (rank : String → Nat)
    (h : ∀ e ∈ api.registry.messages.entries, ∀ nested ∈ e.2.messages, rank e.1 < rank nested) :
    api.NestingAcyclic := by
  have hrises : ∀ {id nested : String}, TransGen api.Encloses id nested → rank id < rank nested := by
    intro id nested hnested
    induction hnested with
    | single hstep =>
      obtain ⟨m, hm, hmem⟩ := hstep
      exact h (id, m) (IdMap.get?_eq_some_iff.1 hm) _ hmem
    | tail _ hstep ih =>
      obtain ⟨m, hm, hmem⟩ := hstep
      exact ih.trans (h (_, m) (IdMap.get?_eq_some_iff.1 hm) _ hmem)
  exact fun id hid => absurd (hrises hid) (Nat.lt_irrefl _)

theorem Encloses.mem_keys {id nested : String} (h : api.Encloses id nested) :
    id ∈ api.registry.messages.keys := by
  obtain ⟨m, hm, -⟩ := h
  exact IdMap.mem_keys_iff.2 (Option.isSome_iff_exists.2 ⟨m, hm⟩)

/-- A registered message is inside another one, directly or not. -/
def Inside (api : Api) (nested id : {id // id ∈ api.registry.messages.keys}) : Prop :=
  TransGen api.Encloses id.1 nested.1

/-- **Nesting without a cycle is well-founded**: only registered messages enclose others, and there are
finitely many of them. -/
theorem NestingAcyclic.wellFounded (h : api.NestingAcyclic) :
    WellFounded fun nested id => api.Encloses id nested := by
  have hirrefl : Std.Irrefl api.Inside := ⟨fun id => h id.1⟩
  have htrans : IsTrans _ api.Inside := ⟨fun _ _ _ hab hbc => hbc.trans hab⟩
  have hfinite : Finite {id // id ∈ api.registry.messages.keys} :=
    List.finite_toSet api.registry.messages.keys
  have hregistered : ∀ id : {id // id ∈ api.registry.messages.keys},
      Acc (fun nested id => api.Encloses id nested) id.1 := by
    intro id
    induction id using (Finite.wellFounded_of_trans_of_irrefl api.Inside).induction with
    | _ id ih =>
      refine .intro _ fun nested hnested => ?_
      by_cases hreg : nested ∈ api.registry.messages.keys
      · exact ih ⟨nested, hreg⟩ (.single hnested)
      · exact .intro _ fun deeper hdeeper => absurd hdeeper.mem_keys hreg
  refine ⟨fun id => .intro _ fun nested hnested => ?_⟩
  exact (hregistered ⟨id, hnested.mem_keys⟩).inv hnested

end Api

/-! ## The walk -/

namespace Validation

/-- Puts messages on a stack, one after another. -/
def push (stack : List String) (ids : List String) : List String :=
  ids.foldl (fun stack id => id :: stack) stack

/-- How far a walk has come: the messages that wait, the next one on top, or the verdict. -/
inductive Walk where
  | pending (stack : List String)
  | done (verdict : Except Defect Unit)

/-- A walk behind messages that a check has decided, with the rest still waiting. -/
def Walk.behind (stack : List String) : Except Defect Unit → Walk
  | .ok () => .pending stack
  | .error e => .done (.error e)

/-- The walk ahead of its first round, with the first message on top. -/
def Walk.start (ids : List String) : Walk := .pending (push [] ids.reverse)

/-- One round. -/
def Walk.next (api : Api) : Walk → Walk
  | .pending [] => .done (.ok ())
  | .pending (id :: stack) =>
    match checkMessage api id with
    | .error e => .done (.error e)
    | .ok m => .pending (push stack m.messages.reverse)
  | .done verdict => .done verdict

/-- Whatever is pushed last one first is on top of the stack in order. -/
theorem push_reverse (stack ids : List String) : push stack ids.reverse = ids ++ stack := by
  unfold push
  rw [List.foldl_reverse]
  induction ids with
  | nil => rfl
  | cons id rest ih => rw [List.foldr_cons, ih, List.cons_append]

end Validation

open Validation

namespace Api

variable {api : Api}

theorem start_eq (ids : List String) : Walk.start ids = .pending ids := by
  unfold Walk.start
  rw [push_reverse, List.append_nil]

theorem next_of_error {id : String} {e : Defect} (h : checkMessage api id = .error e)
    (stack : List String) : Walk.next api (.pending (id :: stack)) = .done (.error e) := by
  rw [Walk.next, h]

/-- A message that fits gives way to those nested in it. -/
theorem next_of_ok {id : String} {m : Message} (h : checkMessage api id = .ok m)
    (stack : List String) :
    Walk.next api (.pending (id :: stack)) = .pending (m.messages ++ stack) := by
  rw [Walk.next, h]
  exact congrArg Walk.pending (push_reverse _ _)

/-- Rounds behind the verdict change nothing. -/
theorem iterate_next_done (api : Api) (n : Nat) (verdict : Except Defect Unit) :
    (Walk.next api)^[n] (.done verdict) = .done verdict :=
  Function.iterate_fixed rfl n

/-- A verdict that the walk arrives at is that of the check. -/
theorem checkMessages_of_walk {n : Nat} {pending : List String} {verdict : Except Defect Unit}
    (h : (Walk.next api)^[n] (.pending pending) = .done verdict) :
    checkMessages api pending = some verdict := by
  induction n generalizing pending with
  | zero => cases h
  | succ n ih =>
    rw [Function.iterate_succ_apply] at h
    cases pending with
    | nil =>
      rw [Walk.next, iterate_next_done] at h
      obtain rfl := Walk.done.inj h
      rfl
    | cons id stack =>
      rw [checkMessages_cons]
      cases hcheck : checkMessage api id with
      | error e =>
        rw [next_of_error hcheck, iterate_next_done] at h
        exact congrArg some (Walk.done.inj h)
      | ok m =>
        rw [next_of_ok hcheck] at h
        exact ih h

/-- The walk gets through messages that a check to some depth decides. -/
theorem walk_of_checkAll {depth : Nat} {ids stack : List String} {verdict : Except Defect Unit}
    (h : checkAll (checkNested api depth) ids = some verdict) :
    ∃ n, (Walk.next api)^[n] (.pending (ids ++ stack)) = .behind stack verdict := by
  -- on the depth, and inside on the list: under a nested message lie those that wait beside it
  induction depth generalizing ids stack verdict with
  | zero =>
    cases ids with
    | nil =>
      obtain rfl := Option.some.inj h
      exact ⟨0, rfl⟩
    | cons id rest => cases h
  | succ depth ih =>
    induction ids generalizing verdict with
    | nil =>
      obtain rfl := Option.some.inj h
      exact ⟨0, rfl⟩
    | cons id rest ihrest =>
      rw [checkAll, checkNested] at h
      cases hcheck : checkMessage api id with
      | error e =>
        rw [hcheck] at h
        obtain rfl := Option.some.inj h
        exact ⟨1, next_of_error hcheck _⟩
      | ok m =>
        have hround : Walk.next api (.pending (id :: rest ++ stack)) =
            .pending (m.messages ++ (rest ++ stack)) := next_of_ok hcheck _
        simp only [hcheck] at h
        cases hnested : checkAll (checkNested api depth) m.messages with
        | none =>
          rw [hnested] at h
          cases h
        | some inner =>
          obtain ⟨n, hn⟩ := @ih _ (rest ++ stack) _ hnested
          rw [hnested] at h
          cases inner with
          | error e =>
            obtain rfl := Option.some.inj h
            refine ⟨n + 1, ?_⟩
            rw [Function.iterate_succ_apply, hround]
            exact hn
          | ok _ =>
            obtain ⟨k, hk⟩ := ihrest h
            refine ⟨k + (n + 1), ?_⟩
            rw [Function.iterate_add_apply, Function.iterate_succ_apply, hround, hn]
            exact hk

/-- **The check of pending messages is the verdict that the walk arrives at.** -/
theorem checkMessages_eq_some_iff {pending : List String} {verdict : Except Defect Unit} :
    checkMessages api pending = some verdict ↔
      ∃ n, (Walk.next api)^[n] (.pending pending) = .done verdict := by
  constructor
  · intro h
    obtain ⟨n, hn⟩ : ∃ n, (Walk.next api)^[n] (.pending (pending ++ [])) = .behind [] verdict :=
      walk_of_checkAll h
    rw [List.append_nil] at hn
    cases verdict with
    | error e => exact ⟨n, hn⟩
    | ok _ =>
      refine ⟨n + 1, ?_⟩
      rw [Function.iterate_succ_apply', hn]
      rfl
  · rintro ⟨n, hn⟩
    exact checkMessages_of_walk hn

end Api

end ApiModel
