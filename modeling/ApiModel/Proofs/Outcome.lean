import ApiModel.Outcome

/-!
# When a pass meets no defect, and what it leaves as it was

A pass is a step for each element, or for each item on a common state.

* `sweep_defect_eq_none_iff`, `fold_spec`, `thread_spec` — a pass meets no defect if and only if no
  step does, once an invariant says what the steps see;
* `map_sweep_state`, `fold_frame`, `thread_frame` — what no step changes, the pass does not change.

The same of passes over a map, `IdMap.sweep` and `IdMap.thread`.
-/

namespace ApiModel

namespace Outcome

variable {σ τ ε α β : Type}

/-! ## One step after another -/

@[simp]
theorem map_defect (f : σ → τ) (o : Outcome σ ε) : (o.map f).defect = o.defect := rfl

@[simp]
theorem map_state (f : σ → τ) (o : Outcome σ ε) : (o.map f).state = f o.state := rfl

theorem andThen_of_ok {o : Outcome σ ε} (h : o.defect = none) (next : σ → Outcome σ ε) :
    o.andThen next = next o.state := by
  unfold andThen
  rw [h]

theorem andThen_defect_eq_none_iff {o : Outcome σ ε} {next : σ → Outcome σ ε} :
    (o.andThen next).defect = none ↔ o.defect = none ∧ (next o.state).defect = none := by
  cases h : o.defect with
  | none => simp [andThen_of_ok h]
  | some e => simp [andThen, h]

/-- What neither step changes, both together do not change. -/
theorem andThen_frame {o : Outcome σ ε} {next : σ → Outcome σ ε} (view : σ → β) {b : β}
    (h : view o.state = b) (hnext : ∀ s, view (next s).state = view s) :
    view (o.andThen next).state = b := by
  cases hd : o.defect with
  | none => rw [andThen_of_ok hd, hnext, h]
  | some e => simpa [andThen, hd] using h

theorem toExcept_eq_ok_iff {o : Outcome σ ε} {s : σ} :
    o.toExcept = .ok s ↔ o.defect = none ∧ o.state = s := by
  unfold toExcept
  split <;> rename_i h <;> simp [h]

theorem toExcept_eq_error_iff {o : Outcome σ ε} {e : ε} :
    o.toExcept = .error e ↔ o.defect = some e := by
  unfold toExcept
  split <;> rename_i h <;> simp [h]

/-! ## Sweeps -/

theorem sweep_cons (step : α → Outcome α ε) (a : α) (rest : List α) :
    sweep step (a :: rest) =
      match (step a).defect with
      | some e => ⟨(step a).state :: rest, some e⟩
      | none => (sweep step rest).map ((step a).state :: ·) := by
  rw [sweep]
  split <;> rename_i h <;> simp [h]

theorem sweep_defect_eq_none_iff {step : α → Outcome α ε} {as : List α} :
    (sweep step as).defect = none ↔ ∀ a ∈ as, (step a).defect = none := by
  induction as with
  | nil => simp
  | cons a rest ih =>
    rw [sweep_cons, List.forall_mem_cons]
    cases h : (step a).defect with
    | none => simp [ih]
    | some e => simp

/-- What no step changes of its element, the sweep does not change. -/
theorem map_sweep_state {step : α → Outcome α ε} (view : α → β)
    (h : ∀ a, view (step a).state = view a) (as : List α) :
    (sweep step as).state.map view = as.map view := by
  induction as with
  | nil => rfl
  | cons a rest ih =>
    rw [sweep_cons]
    cases (step a).defect with
    | none => simp [h, ih]
    | some e => simp [h]

/-- A sweep without defects changes every element by itself. -/
theorem sweep_state_of_ok {step : α → Outcome α ε} {as : List α}
    (h : (sweep step as).defect = none) :
    (sweep step as).state = as.map fun a => (step a).state := by
  induction as with
  | nil => rfl
  | cons a rest ih =>
    have hall := List.forall_mem_cons.1 (sweep_defect_eq_none_iff.1 h)
    have hrest := ih (sweep_defect_eq_none_iff.2 hall.2)
    rw [sweep_cons, hall.1, List.map_cons, ← hrest]
    rfl

/-! ## Folds -/

theorem fold_cons (step : σ → α → Outcome σ ε) (s : σ) (a : α) (rest : List α) :
    fold step s (a :: rest) =
      match (step s a).defect with
      | some e => ⟨(step s a).state, some e⟩
      | none => fold step (step s a).state rest := by
  rw [fold]
  split <;> rename_i h <;> simp [h]

/-- With an invariant under which a step has no defect exactly on the items that are `Ok`, the fold has
none exactly if all items are. -/
theorem fold_spec {step : σ → α → Outcome σ ε} (Inv : σ → Prop) (Ok : α → Prop) {s : σ}
    {as : List α} (hs : Inv s)
    (hstep : ∀ s, Inv s → ∀ a ∈ as, Inv (step s a).state ∧ ((step s a).defect = none ↔ Ok a)) :
    Inv (fold step s as).state ∧ ((fold step s as).defect = none ↔ ∀ a ∈ as, Ok a) := by
  induction as generalizing s with
  | nil => exact ⟨hs, by simp [fold]⟩
  | cons a rest ih =>
    obtain ⟨hinv, hok⟩ := hstep s hs a (by simp)
    have hrest := ih hinv fun t ht x hx => hstep t ht x (by simp [hx])
    rw [fold_cons, List.forall_mem_cons]
    cases h : (step s a).defect with
    | none => exact ⟨hrest.1, by simp [hrest.2, hok.1 h]⟩
    | some e => exact ⟨hinv, by simp [← hok, h]⟩

/-- The defect of a fold is that of one of its steps. -/
theorem exists_defect_of_fold {step : σ → α → Outcome σ ε} {s : σ} {as : List α} {e : ε}
    (h : (fold step s as).defect = some e) : ∃ a ∈ as, ∃ s, (step s a).defect = some e := by
  induction as generalizing s with
  | nil => cases h
  | cons a rest ih =>
    rw [fold_cons] at h
    cases hstep : (step s a).defect with
    | none =>
      rw [hstep] at h
      obtain ⟨x, hx, hfx⟩ := ih h
      exact ⟨x, by simp [hx], hfx⟩
    | some e' =>
      rw [hstep] at h
      exact ⟨a, by simp, s, hstep.trans h⟩

theorem fold_frame {step : σ → α → Outcome σ ε} (view : σ → β)
    (h : ∀ s a, view (step s a).state = view s) (s : σ) (as : List α) :
    view (fold step s as).state = view s := by
  induction as generalizing s with
  | nil => rfl
  | cons a rest ih =>
    rw [fold_cons]
    cases (step s a).defect with
    | none => rw [ih, h]
    | some e => exact h s a

/-- What no step changes, a fold without defects does not change. -/
theorem foldl_frame {step : σ → α → σ} (view : σ → β) (h : ∀ s a, view (step s a) = view s) (s : σ)
    (as : List α) : view (as.foldl step s) = view s := by
  induction as generalizing s with
  | nil => rfl
  | cons a rest ih => rw [List.foldl_cons, ih, h]

/-- What a change of one element does not touch. -/
theorem map_list_modify (view : α → β) {f : α → α} (h : ∀ a, view (f a) = view a) (as : List α)
    (i : Nat) : (as.modify i f).map view = as.map view := by
  apply List.ext_getElem?
  intro n
  rw [List.getElem?_map, List.getElem?_map, List.getElem?_modify]
  split
  · simp [Option.map_map, Function.comp_def, h]
  · simp

/-! ## Threads -/

theorem thread_cons (step : σ → α → Outcome (σ × α) ε) (s : σ) (a : α) (rest : List α) :
    thread step s (a :: rest) =
      match (step s a).defect with
      | some e => ⟨((step s a).state.1, (step s a).state.2 :: rest), some e⟩
      | none => (thread step (step s a).state.1 rest).map
          fun (s', rest') => (s', (step s a).state.2 :: rest') := by
  rw [thread]
  split <;> rename_i h <;> simp [h]

theorem thread_spec {step : σ → α → Outcome (σ × α) ε} (Inv : σ → Prop) (Ok : α → Prop) {s : σ}
    {as : List α} (hs : Inv s)
    (hstep : ∀ s, Inv s → ∀ a ∈ as, Inv (step s a).state.1 ∧ ((step s a).defect = none ↔ Ok a)) :
    Inv (thread step s as).state.1 ∧ ((thread step s as).defect = none ↔ ∀ a ∈ as, Ok a) := by
  induction as generalizing s with
  | nil => exact ⟨hs, by simp [thread]⟩
  | cons a rest ih =>
    obtain ⟨hinv, hok⟩ := hstep s hs a (by simp)
    have hrest := ih hinv fun t ht x hx => hstep t ht x (by simp [hx])
    rw [thread_cons, List.forall_mem_cons]
    cases h : (step s a).defect with
    | none => exact ⟨hrest.1, by simp [hrest.2, hok.1 h]⟩
    | some e => exact ⟨hinv, by simp [← hok, h]⟩

theorem thread_frame {step : σ → α → Outcome (σ × α) ε} (view : σ → τ) (viewItem : α → β)
    (h : ∀ s a, view (step s a).state.1 = view s) (hitem : ∀ s a, viewItem (step s a).state.2 = viewItem a)
    (s : σ) (as : List α) :
    view (thread step s as).state.1 = view s ∧
      (thread step s as).state.2.map viewItem = as.map viewItem := by
  induction as generalizing s with
  | nil => exact ⟨rfl, rfl⟩
  | cons a rest ih =>
    rw [thread_cons]
    cases (step s a).defect with
    | none =>
      obtain ⟨hstate, hitems⟩ := ih (step s a).state.1
      exact ⟨hstate.trans (h s a), by simp [hitems, hitem]⟩
    | some e => exact ⟨h s a, by simp [hitem]⟩

end Outcome

namespace IdMap

variable {σ τ ε α β : Type}

/-! ## Passes over a map -/

theorem forall_entries_iff {m : IdMap α} {P : α → Prop} :
    (∀ e ∈ m.entries, P e.2) ↔ ∀ id a, m.get? id = some a → P a := by
  constructor
  · intro h id a ha
    exact h (id, a) (get?_eq_some_iff.1 ha)
  · intro h e he
    exact h e.1 e.2 (get?_eq_some_iff.2 he)

theorem sweep_defect_eq_none_iff {m : IdMap α} {step : α → Outcome α ε} :
    (m.sweep step).defect = none ↔ ∀ id a, m.get? id = some a → (step a).defect = none := by
  rw [← forall_entries_iff]
  exact Outcome.sweep_defect_eq_none_iff

theorem map_sweep_state {m : IdMap α} {step : α → Outcome α ε} (view : α → β)
    (h : ∀ a, view (step a).state = view a) :
    ((m.sweep step).state.map fun _ => view) = m.map fun _ => view := by
  have hentries : (Outcome.sweep (onEntry step) m.entries).state.map (fun e => (e.1, view e.2)) =
      m.entries.map fun e => (e.1, view e.2) :=
    Outcome.map_sweep_state _ (fun e => by simp [onEntry, h]) m.entries
  simp only [map, sweep, IdMap.mk.injEq]
  exact hentries

theorem sweep_state_of_ok {m : IdMap α} {step : α → Outcome α ε}
    (h : (m.sweep step).defect = none) : (m.sweep step).state = m.map fun _ a => (step a).state := by
  have hentries : (Outcome.sweep (onEntry step) m.entries).state = _ :=
    Outcome.sweep_state_of_ok h
  simp only [sweep, map, IdMap.mk.injEq, hentries]
  rfl

theorem thread_spec {m : IdMap α} {step : σ → α → Outcome (σ × α) ε} (Inv : σ → Prop)
    (Ok : α → Prop) {s : σ} (hs : Inv s)
    (hstep : ∀ s, Inv s → ∀ a ∈ m.values,
      Inv (step s a).state.1 ∧ ((step s a).defect = none ↔ Ok a)) :
    Inv (m.thread step s).state.1 ∧
      ((m.thread step s).defect = none ↔ ∀ id a, m.get? id = some a → Ok a) := by
  rw [← forall_entries_iff]
  refine Outcome.thread_spec Inv (fun e : String × α => Ok e.2) hs ?_
  intro s hs e he
  exact hstep s hs e.2 (List.mem_map_of_mem he)

theorem thread_frame {m : IdMap α} {step : σ → α → Outcome (σ × α) ε} (view : σ → τ)
    (viewItem : α → β) (h : ∀ s a, view (step s a).state.1 = view s)
    (hitem : ∀ s a, viewItem (step s a).state.2 = viewItem a) (s : σ) :
    view (m.thread step s).state.1 = view s ∧
      ((m.thread step s).state.2.map fun _ => viewItem) = m.map fun _ => viewItem := by
  have hentries := Outcome.thread_frame view (fun e : String × α => (e.1, viewItem e.2))
    (fun s e => show view (onEntryWith step s e).state.1 = view s by simp [onEntryWith, h])
    (fun s e => by simp [onEntryWith, hitem]) s m.entries
  refine ⟨hentries.1, ?_⟩
  simp only [map, thread, IdMap.mk.injEq]
  exact hentries.2

theorem map_map (m : IdMap α) (f : α → β) (g : β → τ) :
    ((m.map fun _ => f).map fun _ => g) = m.map fun _ a => g (f a) := by
  apply ext
  intro id
  simp [Option.map_map, Function.comp_def]

theorem values_map (m : IdMap α) (f : α → β) : (m.map fun _ => f).values = m.values.map f := by
  simp [values, map, Function.comp_def]

theorem filter_map (m : IdMap α) (f : α → β) (p : String → Bool) :
    ((m.map fun _ => f).filter fun id _ => p id) = (m.filter fun id _ => p id).map fun _ => f := by
  apply ext
  intro id
  rw [get?_filter, get?_map, get?_map, get?_filter]
  cases m.get? id with
  | none => rfl
  | some a => cases p id <;> simp [Option.filter]

/-- What a change of single elements does not touch. -/
theorem map_modify {m : IdMap α} {id : String} {f : α → α} (view : α → β)
    (h : ∀ a, view (f a) = view a) : ((m.modify id f).map fun _ => view) = m.map fun _ => view := by
  apply ext
  intro x
  rw [get?_map, get?_map, get?_modify]
  split
  · simp [Option.map_map, Function.comp_def, h]
  · rfl

end IdMap

end ApiModel
