import ApiModel.Proofs.Edit
import ApiModel.Proofs.Keyed

/-!
# What is recorded as a target

Targets are found for every binding of every listed method first, and recorded behind that, method by
method.  A method that is listed twice is recorded twice.

Principal results:

* `identifyTargets_eq_ok_iff`, `targetPass_of_defect` — the pass records all targets, or none;
* `recorded_of_identifyTargets` — **behind the pass every listed method holds the targets of its own
  bindings**, when no two services share a method.
-/

namespace ApiModel

/-- The method with targets on its bindings. -/
def Method.targeted (targets : List (Option TargetResource)) (m : Method) : Method :=
  { m with pathInfo.bindings := Target.assign m.pathInfo.bindings targets }

namespace Target

variable {ε : Type} {api found : Api}

/-! ## Bindings with targets -/

theorem assign_assign {bindings : List PathBinding} {targets targets' : List (Option TargetResource)}
    (h : targets'.length = bindings.length) :
    assign (assign bindings targets) targets' = assign bindings targets' := by
  induction bindings generalizing targets targets' with
  | nil => cases targets <;> rfl
  | cons b rest ih =>
    cases targets' with
    | nil => simp at h
    | cons t' targets' =>
      have hrest : targets'.length = rest.length := by simpa using h
      cases targets with
      | nil => rfl
      | cons t targets => simp [assign, ih hrest]

theorem length_assign (bindings : List PathBinding) (targets : List (Option TargetResource)) :
    (assign bindings targets).length = bindings.length := by
  have hbare := congrArg List.length (Api.map_assign bindings targets)
  simpa using hbare

/-- A target that is recorded was found for the binding that holds it. -/
theorem exists_of_mem_assign {f : PathBinding → Except ε (Option TargetResource)}
    {bindings : List PathBinding} {targets : List (Option TargetResource)} {b : PathBinding}
    (h : bindings.mapM f = .ok targets) (hb : b ∈ assign bindings targets) :
    ∃ old ∈ bindings, b = { old with target := b.target } ∧ f old = .ok b.target := by
  have hall := mapM_eq_ok_iff.1 h
  clear h
  induction hall with
  | nil => cases hb
  | @cons old t rest targets hfound _ ih =>
    rcases List.mem_cons.1 hb with rfl | hb
    · exact ⟨old, by simp, rfl, hfound⟩
    · obtain ⟨x, hx, heq, hfx⟩ := ih hb
      exact ⟨x, by simp [hx], heq, hfx⟩

/-! ## Records -/

theorem targeted_targeted {m : Method} {targets targets' : List (Option TargetResource)}
    (h : targets'.length = m.pathInfo.bindings.length) :
    (m.targeted targets).targeted targets' = m.targeted targets' := by
  unfold Method.targeted
  simp only [assign_assign h]

/-- The method with an ID, once all targets are recorded. -/
def latestTargets (targets : List (String × List (Option TargetResource))) (id : String)
    (m : Method) : Method :=
  targets.foldl (fun m t => if id = t.1 then m.targeted t.2 else m) m

/-- Recording changes every method by itself. -/
theorem foldl_record (api : Api) (targets : List (String × List (Option TargetResource))) :
    targets.foldl record api =
      { api with registry.methods := api.registry.methods.map (latestTargets targets) } := by
  have hmodify : targets.foldl record api = { api with registry.methods :=
      (targets.foldl (fun methods t => methods.modify t.1 (Method.targeted t.2))
        api.registry.methods) } := by
    induction targets generalizing api with
    | nil => rfl
    | cons t rest ih =>
      rw [List.foldl_cons, List.foldl_cons, ih]
      rfl
  rw [hmodify, IdMap.foldl_modify]
  rfl

/-- The record that comes last is the one that counts, if it covers all bindings. -/
theorem latestTargets_mem {targets : List (String × List (Option TargetResource))} {id : String}
    {m : Method} (h : ∀ t ∈ targets, t.1 = id → t.2.length = m.pathInfo.bindings.length) :
    (∃ t ∈ targets, t.1 = id ∧ latestTargets targets id m = m.targeted t.2) ∨
      latestTargets targets id m = m ∧ ∀ t ∈ targets, t.1 ≠ id := by
  induction targets generalizing m with
  | nil => exact .inr ⟨rfl, by simp⟩
  | cons t rest ih =>
    rw [List.forall_mem_cons] at h
    have hstep : latestTargets (t :: rest) id m =
        latestTargets rest id (if id = t.1 then m.targeted t.2 else m) := rfl
    rw [hstep]
    by_cases hid : id = t.1
    · have hlength : (m.targeted t.2).pathInfo.bindings.length = m.pathInfo.bindings.length :=
        length_assign _ _
      rw [if_pos hid]
      rcases ih (m := m.targeted t.2) (by rw [hlength]; exact h.2) with
        ⟨u, hu, hkey, heq⟩ | ⟨heq, -⟩
      · left
        exact ⟨u, by simp [hu], hkey, heq.trans (targeted_targeted (h.2 u hu hkey))⟩
      · exact .inl ⟨t, by simp, hid.symm, heq⟩
    · rw [if_neg hid]
      rcases ih h.2 with ⟨u, hu, hkey, heq⟩ | ⟨heq, hnone⟩
      · exact .inl ⟨u, by simp [hu], hkey, heq⟩
      · exact .inr ⟨heq, List.forall_mem_cons.2 ⟨Ne.symm hid, hnone⟩⟩

/-! ## The pass -/

theorem identifyTargets_eq_ok_iff :
    api.identifyTargets = .ok found ↔
      ∃ targets, all api = .ok targets ∧ targets.foldl record api = found := by
  unfold Api.identifyTargets
  rw [Outcome.toExcept_eq_ok_iff]
  unfold Api.targetPass
  split <;> rename_i hall <;> simp [hall]

/-- A defect leaves the model as it was. -/
theorem targetPass_of_defect {d : Defect} (h : api.targetPass.defect = some d) :
    api.targetPass.state = api := by
  unfold Api.targetPass at h ⊢
  split at h
  · cases h
  · rfl

/-- What is found is found for a listed method. -/
theorem mem_of_all {targets : List (String × List (Option TargetResource))} (h : all api = .ok targets)
    {t : String × List (Option TargetResource)} (ht : t ∈ targets) :
    ∃ i s m, api.service? i = some s ∧ m ∈ api.methodsOf s ∧
      ofMethod api (vocabulary api) s m = .ok t := by
  obtain ⟨byService, hall, heq⟩ := bind_eq_ok_iff.1 h
  obtain rfl := Except.ok.inj heq
  obtain ⟨ofService, hofService, ht⟩ := List.mem_flatten.1 ht
  obtain ⟨s, hs, hmethods⟩ := exists_of_mapM hall hofService
  obtain ⟨m, hm, hmethod⟩ := exists_of_mapM hmethods ht
  obtain ⟨i, hi⟩ := IdMap.mem_values_iff.1 hs
  exact ⟨i, s, m, hi, hm, hmethod⟩

/-- For every listed method targets are found. -/
theorem exists_of_all {targets : List (String × List (Option TargetResource))}
    (h : all api = .ok targets) {i : String} {s : Service} {m : Method} (hs : api.service? i = some s)
    (hm : m ∈ api.methodsOf s) : ∃ t ∈ targets, ofMethod api (vocabulary api) s m = .ok t := by
  obtain ⟨byService, hall, heq⟩ := bind_eq_ok_iff.1 h
  obtain rfl := Except.ok.inj heq
  obtain ⟨ofService, hofService, hmethods⟩ :=
    exists_result_of_mapM hall (IdMap.mem_values_iff.2 ⟨i, hs⟩)
  obtain ⟨t, ht, hmethod⟩ := exists_result_of_mapM hmethods hm
  exact ⟨t, List.mem_flatten.2 ⟨ofService, hofService, ht⟩, hmethod⟩

theorem ofMethod_eq_ok_iff {vocabulary : List String} {s : Service} {m : Method}
    {t : String × List (Option TargetResource)} :
    ofMethod api vocabulary s m = .ok t ↔
      t.1 = m.id ∧ m.pathInfo.bindings.mapM (ofPath api vocabulary s m ·.path) = .ok t.2 := by
  unfold ofMethod
  rw [bind_eq_ok_iff]
  constructor
  · rintro ⟨targets, htargets, heq⟩
    obtain rfl := Except.ok.inj heq
    exact ⟨rfl, htargets⟩
  · rintro ⟨hid, htargets⟩
    exact ⟨t.2, htargets, congrArg Except.ok (Prod.ext hid.symm rfl)⟩

/-- **Behind the pass every listed method holds the targets of its own bindings.** -/
theorem recorded_of_identifyTargets (hkeyed : api.Keyed) (howned : api.MethodsOwned)
    (h : api.identifyTargets = .ok found) {i id : String} {s : Service} {m : Method}
    (hs : api.service? i = some s) (hid : id ∈ s.methods) (hm : api.method? id = some m) :
    ∃ targets, m.pathInfo.bindings.mapM (ofPath api (vocabulary api) s m ·.path) = .ok targets ∧
      found.method? id = some (m.targeted targets) := by
  obtain ⟨targets, hall, rfl⟩ := identifyTargets_eq_ok_iff.1 h
  have hmid : m.id = id := hkeyed.methods id m hm
  -- a record under the ID is one for this method and this service
  have hown : ∀ t ∈ targets, t.1 = id →
      m.pathInfo.bindings.mapM (ofPath api (vocabulary api) s m ·.path) = .ok t.2 := by
    intro t ht hkey
    obtain ⟨j, s', m', hs', hm', hmethod⟩ := mem_of_all hall ht
    obtain ⟨hid', htargets⟩ := ofMethod_eq_ok_iff.1 hmethod
    obtain ⟨listed, hlisted, hget⟩ := List.mem_filterMap.1 hm'
    have hlistedId : m'.id = listed := hkeyed.methods listed m' hget
    obtain rfl : listed = id := by rw [← hlistedId, ← hid', hkey]
    obtain rfl := Option.some.inj (hget.symm.trans hm)
    obtain rfl := howned i j s s' hs hs' listed hid hlisted
    obtain rfl := Option.some.inj (hs.symm.trans hs')
    exact htargets
  have hlength : ∀ t ∈ targets, t.1 = id → t.2.length = m.pathInfo.bindings.length := by
    intro t ht hkey
    exact (mapM_eq_ok_iff.1 (hown t ht hkey)).length_eq.symm
  have hfound : (targets.foldl record api).method? id = some (latestTargets targets id m) := by
    rw [foldl_record]
    show (api.registry.methods.map _).get? id = _
    rw [IdMap.get?_map, show api.registry.methods.get? id = some m from hm]
    rfl
  rcases latestTargets_mem hlength with ⟨t, ht, hkey, heq⟩ | ⟨-, hnone⟩
  · exact ⟨t.2, hown t ht hkey, by rw [hfound, heq]⟩
  · have hlisted : m ∈ api.methodsOf s := List.mem_filterMap.2 ⟨id, hid, hm⟩
    obtain ⟨t, ht, hmethod⟩ := exists_of_all hall hs hlisted
    exact absurd ((ofMethod_eq_ok_iff.1 hmethod).1.trans hmid) (hnone t ht)

end Target

end ApiModel
