import ApiModel.IdMap

/-!
# Steps that may stop half-way

A pass over a model may meet a defect and stop.  What it did up to that point stays, so a step yields
an `Outcome`: the state it leaves behind, and the defect if there is one.  `sweep` runs a step over a
list, `thread` over a list while passing a common state along.

Principal statements: `IdMap.keys_sweep_entries`, `IdMap.keys_thread_entries` — no pass over a map adds or
drops an element, so what it leaves behind is a map with the same IDs.
-/

namespace ApiModel

/-- The state that a step leaves behind and the defect that stopped it, if any. -/
structure Outcome (σ ε : Type) where
  state : σ
  defect : Option ε := none

namespace Outcome

variable {σ τ ε α : Type}

/-- Goes on with the next step unless a defect stopped this one. -/
def andThen (o : Outcome σ ε) (next : σ → Outcome σ ε) : Outcome σ ε :=
  match o.defect with
  | none => next o.state
  | some _ => o

/-- Changes the state and keeps the defect. -/
def map (f : σ → τ) (o : Outcome σ ε) : Outcome τ ε := ⟨f o.state, o.defect⟩

/-- The state of a step that met no defect. -/
def toExcept (o : Outcome σ ε) : Except ε σ :=
  match o.defect with
  | none => .ok o.state
  | some e => .error e

/-- Runs a step on the elements in order; the one with a defect is the last that is touched. -/
def sweep (step : α → Outcome α ε) : List α → Outcome (List α) ε
  | [] => ⟨[], none⟩
  | a :: rest =>
    match step a with
    | ⟨a', some e⟩ => ⟨a' :: rest, some e⟩
    | ⟨a', none⟩ => (sweep step rest).map (a' :: ·)

/-- Runs a step for each item in order on a common state. -/
def fold (step : σ → α → Outcome σ ε) (s : σ) : List α → Outcome σ ε
  | [] => ⟨s, none⟩
  | a :: rest =>
    match step s a with
    | ⟨s', some e⟩ => ⟨s', some e⟩
    | ⟨s', none⟩ => fold step s' rest

/-- Runs a step on the elements in order while a common state is passed along. -/
def thread (step : σ → α → Outcome (σ × α) ε) (s : σ) : List α → Outcome (σ × List α) ε
  | [] => ⟨(s, []), none⟩
  | a :: rest =>
    match step s a with
    | ⟨(s', a'), some e⟩ => ⟨(s', a' :: rest), some e⟩
    | ⟨(s', a'), none⟩ => (thread step s' rest).map fun (s'', rest') => (s'', a' :: rest')

@[simp]
theorem sweep_nil (step : α → Outcome α ε) : sweep step [] = ⟨[], none⟩ := rfl

end Outcome

namespace IdMap

variable {σ ε α : Type}

/-- A step on an element, its ID staying. -/
def onEntry (step : α → Outcome α ε) (e : String × α) : Outcome (String × α) ε :=
  (step e.2).map fun a => (e.1, a)

/-- A step on an element and a common state, its ID staying. -/
def onEntryWith (step : σ → α → Outcome (σ × α) ε) (s : σ) (e : String × α) :
    Outcome (σ × String × α) ε :=
  (step s e.2).map fun (s', a) => (s', e.1, a)

theorem keys_sweep_entries (step : α → Outcome α ε) (entries : List (String × α)) :
    (Outcome.sweep (onEntry step) entries).state.map Prod.fst = entries.map Prod.fst := by
  induction entries with
  | nil => rfl
  | cons e rest ih =>
    simp only [Outcome.sweep, onEntry, Outcome.map]
    split
    · next h => simp only [Outcome.mk.injEq] at h; simp [← h.1]
    · next h =>
      simp only [Outcome.mk.injEq] at h
      simp only [← h.1, List.map_cons]
      exact congrArg _ ih

theorem keys_thread_entries (step : σ → α → Outcome (σ × α) ε) (s : σ)
    (entries : List (String × α)) :
    (Outcome.thread (onEntryWith step) s entries).state.2.map Prod.fst = entries.map Prod.fst := by
  induction entries generalizing s with
  | nil => rfl
  | cons e rest ih =>
    simp only [Outcome.thread, onEntryWith, Outcome.map]
    split
    · next h => simp only [Outcome.mk.injEq, Prod.mk.injEq] at h; simp [← h.1.2]
    · next h =>
      simp only [Outcome.mk.injEq, Prod.mk.injEq] at h
      simp only [← h.1.2, List.map_cons]
      exact congrArg _ (ih _)

/-- Runs a step on the elements in ID order. -/
def sweep (m : IdMap α) (step : α → Outcome α ε) : Outcome (IdMap α) ε :=
  let run := Outcome.sweep (onEntry step) m.entries
  ⟨⟨run.state, ascending_of_keys_eq m.ascending (keys_sweep_entries step m.entries)⟩, run.defect⟩

/-- Runs a step on the elements in ID order while a common state is passed along. -/
def thread (m : IdMap α) (step : σ → α → Outcome (σ × α) ε) (s : σ) : Outcome (σ × IdMap α) ε :=
  let run := Outcome.thread (onEntryWith step) s m.entries
  ⟨(run.state.1,
    ⟨run.state.2, ascending_of_keys_eq m.ascending (keys_thread_entries step s m.entries)⟩),
   run.defect⟩

end IdMap

end ApiModel
