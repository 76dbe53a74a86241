import ApiModel.Proofs.Selected

/-!
# Selections one after the other

A second selection works on what the first one has left.  Whether a service is restricted to its included
methods goes by the methods that it still lists, and a service that goes takes along the methods that it
still lists, so what a selection does depends on the ones before it.  As long as all of them include the same
elements, the whole is that of one selection.

Principal results:

* `SelectedFrom.trans` — selections that include the same are one, which skips what either of them skips;
* `applySelection_congr` — of the skipped elements neither the order nor the number matters;
* `skipEach_applySelection` — a run of selections that skip one element each;
* `applySelection_successive` — **selections that include the same add up**, a second run changes nothing,
  and elements may be skipped in any order.
-/

namespace ApiModel

variable {included skipped more : List String} {id : String}

/-! ## What stays twice -/

namespace Selection

theorem stays_append :
    Stays ⟨skipped ++ more, included⟩ id ↔
      Stays ⟨skipped, included⟩ id ∧ Stays ⟨more, included⟩ id := by
  simp only [Stays, List.mem_append, not_or]
  tauto

theorem filter_stays_append (ids : List String) :
    (ids.filter fun id => Stays ⟨skipped, included⟩ id).filter
        (fun id => Stays ⟨more, included⟩ id) =
      ids.filter fun id => Stays ⟨skipped ++ more, included⟩ id := by
  rw [List.filter_filter]
  apply List.filter_congr
  intro id _
  rw [← Bool.decide_and, decide_eq_decide, stays_append, and_comm]

/-- The second selection sees the siblings that the first one has left. -/
theorem staysAmong_append (siblings : List String) :
    StaysAmong ⟨skipped ++ more, included⟩ siblings id ↔
      StaysAmong ⟨skipped, included⟩ siblings id ∧
        StaysAmong ⟨more, included⟩
          (siblings.filter fun id => StaysAmong ⟨skipped, included⟩ siblings id) id := by
  constructor
  · rintro ⟨hlisted, hsiblings⟩
    rw [List.mem_append, not_or] at hlisted
    refine ⟨⟨hlisted.1, hsiblings⟩, hlisted.2, ?_⟩
    rintro ⟨sibling, hleft, hincluded⟩
    exact hsiblings ⟨sibling, (List.mem_filter.1 hleft).1, hincluded⟩
  · rintro ⟨⟨hskipped, hsiblings⟩, hmore, -⟩
    refine ⟨?_, hsiblings⟩
    rw [List.mem_append, not_or]
    exact ⟨hskipped, hmore⟩

end Selection

namespace Api

open Selection

variable {api between result : Api}

/-! ## What goes twice -/

theorem losesService_append (h : SelectedFrom api ⟨skipped, included⟩ between) :
    LosesService api ⟨skipped ++ more, included⟩ id ↔
      LosesService api ⟨skipped, included⟩ id ∨ LosesService between ⟨more, included⟩ id := by
  unfold LosesService
  rw [h.services, List.mem_filter, decide_eq_true_iff, stays_append]
  tauto

/-- A method goes with the first selection, or it is left and goes with the second one. -/
theorem losesMethod_append (h : SelectedFrom api ⟨skipped, included⟩ between) :
    LosesMethod api ⟨skipped ++ more, included⟩ id ↔
      LosesMethod api ⟨skipped, included⟩ id ∨ LosesMethod between ⟨more, included⟩ id := by
  constructor
  · rintro ⟨i, a, ha, hid, hgoes⟩
    rw [losesService_append h, staysAmong_append] at hgoes
    by_cases hlost : LosesService api ⟨skipped, included⟩ i
    · exact .inl ⟨i, a, ha, hid, .inl hlost⟩
    by_cases hstays : StaysAmong ⟨skipped, included⟩ a.methods id
    · have hleft := h.service_left i hlost
      rw [ha] at hleft
      refine .inr ⟨i, _, hleft, List.mem_filter.2 ⟨hid, decide_eq_true hstays⟩, ?_⟩
      exact hgoes.imp (fun hgone => hgone.resolve_left hlost) fun hgone hmore =>
        hgone ⟨hstays, hmore⟩
    · exact .inl ⟨i, a, ha, hid, .inr hstays⟩
  · rintro (⟨i, a, ha, hid, hgoes⟩ | ⟨i, b, hb, hid, hgoes⟩)
    · refine ⟨i, a, ha, hid, ?_⟩
      rw [losesService_append h, staysAmong_append]
      exact hgoes.imp .inl fun hgone hstays => hgone hstays.1
    · -- the service that is left is one of the first model
      have hlost : ¬ LosesService api ⟨skipped, included⟩ i := by
        intro hlost
        rw [h.service_lost i hlost] at hb
        cases hb
      rw [h.service_left i hlost] at hb
      obtain ⟨a, ha, rfl⟩ := Option.map_eq_some_iff.1 hb
      refine ⟨i, a, ha, (List.mem_filter.1 hid).1, ?_⟩
      rw [losesService_append h, staysAmong_append]
      exact hgoes.imp .inr fun hgone hstays => hgone hstays.2

/-! ## Two selections in one -/

/-- **Selections that include the same are one**, which skips what either of them skips. -/
theorem SelectedFrom.trans (h : SelectedFrom api ⟨skipped, included⟩ between)
    (h' : SelectedFrom between ⟨more, included⟩ result) :
    SelectedFrom api ⟨skipped ++ more, included⟩ result where
  services := by rw [h'.services, h.services, filter_stays_append]
  messages := by rw [h'.messages, h.messages, filter_stays_append]
  enums := by rw [h'.enums, h.enums, filter_stays_append]
  service_lost id hlost := by
    by_cases hfirst : LosesService api ⟨skipped, included⟩ id
    · by_cases hsecond : LosesService between ⟨more, included⟩ id
      · exact h'.service_lost id hsecond
      · rw [h'.service_left id hsecond, h.service_lost id hfirst, Option.map_none]
    · exact h'.service_lost id (((losesService_append h).1 hlost).resolve_left hfirst)
  service_left id hleft := by
    rw [losesService_append h, not_or] at hleft
    rw [h'.service_left id hleft.2, h.service_left id hleft.1, Option.map_map]
    congr 1
    funext a
    simp only [Function.comp_apply, List.filter_filter, staysAmong_append, Bool.decide_and,
      Bool.and_comm]
  method_lost id hlost := by
    by_cases hsecond : LosesMethod between ⟨more, included⟩ id
    · exact h'.method_lost id hsecond
    · rw [h'.method_left id hsecond]
      exact h.method_lost id (((losesMethod_append h).1 hlost).resolve_right hsecond)
  method_left id hleft := by
    rw [losesMethod_append h, not_or] at hleft
    rw [h'.method_left id hleft.2, h.method_left id hleft.1]
  message id := by
    rw [h'.message id, h.message id, Option.map_map]
    congr 1
    funext m
    simp only [Function.comp_apply, List.filter_filter, List.mem_append, not_or, Bool.decide_and,
      Bool.and_comm]
  rest := by
    have hrest := h'.rest
    rw [h.rest] at hrest
    exact hrest

theorem applySelection_append (api : Api) (included skipped more : List String) :
    (api.applySelection ⟨skipped, included⟩).applySelection ⟨more, included⟩ =
      api.applySelection ⟨skipped ++ more, included⟩ :=
  ((selectedFrom_applySelection api _).trans (selectedFrom_applySelection _ _)).unique
    (selectedFrom_applySelection api _)

/-- Of the skipped elements neither the order nor the number matters. -/
theorem applySelection_congr (h : ∀ id, id ∈ skipped ↔ id ∈ more) (api : Api) :
    api.applySelection ⟨skipped, included⟩ = api.applySelection ⟨more, included⟩ := by
  have hlists : lists ⟨skipped, included⟩ = lists ⟨more, included⟩ := by
    simp only [lists_eq, h]
  have hkeeps : keeps ⟨skipped, included⟩ = keeps ⟨more, included⟩ := by
    funext id
    unfold keeps
    rw [hlists]
  have hmethods : keepsMethod ⟨skipped, included⟩ = keepsMethod ⟨more, included⟩ := by
    funext siblings id
    unfold keepsMethod
    rw [hlists]
  unfold applySelection droppedMethods keptServices droppedServices restrict lostBy
  rw [hlists, hkeeps, hmethods]

/-! ## One element after the other -/

/-- Skips elements one at a time, with the same included ones. -/
def skipEach (included : List String) (api : Api) (order : List String) : Api :=
  order.foldl (fun api id => api.applySelection ⟨[id], included⟩) api

/-- A run adds to what is skipped already. -/
theorem skipEach_applySelection (api : Api) (included skipped order : List String) :
    skipEach included (api.applySelection ⟨skipped, included⟩) order =
      api.applySelection ⟨skipped ++ order, included⟩ := by
  induction order generalizing skipped with
  | nil => rw [List.append_nil]; rfl
  | cons id rest ih =>
    have hstep : skipEach included (api.applySelection ⟨skipped, included⟩) (id :: rest) =
        skipEach included (api.applySelection ⟨skipped ++ [id], included⟩) rest := by
      rw [← applySelection_append]
      rfl
    rw [hstep, ih, List.append_assoc]
    rfl

/-- **Selections that include the same add up.**  A second run of one changes nothing, two of them may
change places, and what is skipped may be skipped one by one in any order. -/
theorem applySelection_successive (api : Api) (included skipped more : List String) :
    (api.applySelection ⟨skipped, included⟩).applySelection ⟨more, included⟩ =
        api.applySelection ⟨skipped ++ more, included⟩ ∧
      (api.applySelection ⟨skipped, included⟩).applySelection ⟨skipped, included⟩ =
        api.applySelection ⟨skipped, included⟩ ∧
      (api.applySelection ⟨skipped, included⟩).applySelection ⟨more, included⟩ =
        (api.applySelection ⟨more, included⟩).applySelection ⟨skipped, included⟩ ∧
      ∀ order, order.Perm skipped →
        skipEach included (api.applySelection ⟨[], included⟩) order =
          api.applySelection ⟨skipped, included⟩ := by
  refine ⟨applySelection_append api included skipped more, ?_, ?_, ?_⟩
  · rw [applySelection_append]
    apply applySelection_congr
    simp
  · rw [applySelection_append, applySelection_append]
    apply applySelection_congr
    simp [or_comm]
  · intro order horder
    rw [skipEach_applySelection, List.nil_append]
    apply applySelection_congr
    exact fun _ => horder.mem_iff

theorem applySelection_successive_fleet :
    [".v1.Ships.Sink", ".v1.Ship.Hull"].Perm [".v1.Ship.Hull", ".v1.Ships.Sink"] ∧
      skipEach [".v1.Ship", ".v1.Ships"] (fleet.applySelection ⟨[], [".v1.Ship", ".v1.Ships"]⟩)
          [".v1.Ships.Sink", ".v1.Ship.Hull"] =
        fleet.applySelection
          ⟨[".v1.Ship.Hull", ".v1.Ships.Sink"], [".v1.Ship", ".v1.Ships"]⟩ ∧
      ((fleet.applySelection ⟨[".v1.Ship.Hull", ".v1.Ships.Sink"],
        [".v1.Ship", ".v1.Ships"]⟩).service? ".v1.Ships").map (·.methods) = some [".v1.Ships.Get"] := by
  have hperm : [".v1.Ships.Sink", ".v1.Ship.Hull"].Perm [".v1.Ship.Hull", ".v1.Ships.Sink"] :=
    .swap _ _ _
  obtain ⟨-, -, -, hrun⟩ := applySelection_successive fleet [".v1.Ship", ".v1.Ships"]
    [".v1.Ship.Hull", ".v1.Ships.Sink"] []
  exact ⟨hperm, hrun _ hperm, rfl⟩

end Api

end ApiModel
