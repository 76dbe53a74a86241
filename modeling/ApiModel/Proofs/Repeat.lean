import ApiModel.Proofs.Outcome

/-!
# Passes that repeat themselves

A pass repeats itself if a second run on the state that the first one left behind, complete or stopped
half-way, yields the same outcome.

Principal results:

* `chain_repeats` — a chain of passes repeats itself if each of them does and none disturbs what an
  earlier one has settled; behind a run without defects every pass is idle (`idle_of_chain`);
* `sweep_repeats` — a sweep repeats itself if its step does;
* `fold_repeats` — so does a fold whose items each overwrite what they find: of two items either the
  later one wins or their order does not matter.
-/

namespace ApiModel

namespace Outcome

variable {σ τ ε α β : Type}

/-- The pass has nothing to do in a state. -/
def Idle (f : σ → Outcome σ ε) (s : σ) : Prop := f s = ⟨s, none⟩

/-- A second run of the pass ends as the first one did. -/
def Repeats (f : σ → Outcome σ ε) : Prop := ∀ s, f (f s).state = f s

/-- The pass leaves another one idle that was so. -/
def Keeps (g f : σ → Outcome σ ε) : Prop := ∀ s, Idle f s → Idle f (g s).state

theorem Repeats.idle {f : σ → Outcome σ ε} (h : Repeats f) {s : σ} (hs : (f s).defect = none) :
    Idle f (f s).state := by
  have hagain := h s
  rw [Idle, hagain, ← hs]

theorem Idle.state_eq {f : σ → Outcome σ ε} {s : σ} (h : Idle f s) : (f s).state = s := by
  rw [h]

theorem Idle.defect_eq {f : σ → Outcome σ ε} {s : σ} (h : Idle f s) : (f s).defect = none := by
  rw [h]

theorem ext {o p : Outcome σ ε} (hstate : o.state = p.state) (hdefect : o.defect = p.defect) :
    o = p := by
  obtain ⟨s, d⟩ := o
  obtain ⟨t, e⟩ := p
  subst hstate
  subst hdefect
  rfl

/-- A step inside a larger state is idle if and only if it is so by itself. -/
theorem map_eq_iff {f : σ → τ} (g : τ → σ) (h : ∀ s, g (f s) = s) {o : Outcome σ ε} {s : σ}
    {d : Option ε} : o.map f = ⟨f s, d⟩ ↔ o = ⟨s, d⟩ := by
  constructor
  · intro hmap
    have hstate : f o.state = f s := congrArg Outcome.state hmap
    have hdefect : o.defect = d := congrArg Outcome.defect hmap
    refine ext ?_ hdefect
    rw [← h o.state, hstate, h]
  · intro ho
    rw [ho]
    rfl

/-! ## Chains -/

theorem andThen_of_defect {o : Outcome σ ε} {e : ε} (h : o.defect = some e)
    (next : σ → Outcome σ ε) : o.andThen next = o := by
  unfold andThen
  rw [h]

theorem andThen_assoc (o : Outcome σ ε) (f g : σ → Outcome σ ε) :
    (o.andThen f).andThen g = o.andThen fun s => (f s).andThen g := by
  cases h : o.defect with
  | none => rw [andThen_of_ok h, andThen_of_ok h]
  | some e => rw [andThen_of_defect h, andThen_of_defect h, andThen_of_defect h]

theorem andThen_ok (o : Outcome σ ε) : (o.andThen fun s => ⟨s, none⟩) = o := by
  obtain ⟨s, d⟩ := o
  cases d <;> rfl

/-- Runs passes one after another up to the first defect. -/
def chain : List (σ → Outcome σ ε) → σ → Outcome σ ε
  | [], s => ⟨s, none⟩
  | f :: fs, s => (f s).andThen (chain fs)

/-- A chain keeps what each of its passes keeps. -/
theorem chain_keeps {f : σ → Outcome σ ε} {gs : List (σ → Outcome σ ε)}
    (h : ∀ g ∈ gs, Keeps g f) : Keeps (chain gs) f := by
  induction gs with
  | nil => exact fun s hs => hs
  | cons g gs ih =>
    rw [List.forall_mem_cons] at h
    intro s hs
    have hg := h.1 s hs
    show Idle f ((g s).andThen (chain gs)).state
    cases hd : (g s).defect with
    | none =>
      rw [andThen_of_ok hd]
      exact ih h.2 _ hg
    | some e =>
      rw [andThen_of_defect hd]
      exact hg

/-- **A chain repeats itself** if its passes do and later ones keep what earlier ones settled. -/
theorem chain_repeats {fs : List (σ → Outcome σ ε)} (hrepeats : ∀ f ∈ fs, Repeats f)
    (hkeeps : fs.Pairwise fun f g => Keeps g f) : Repeats (chain fs) := by
  induction fs with
  | nil => exact fun _ => rfl
  | cons f fs ih =>
    rw [List.forall_mem_cons] at hrepeats
    obtain ⟨hlater, hkeeps⟩ := List.pairwise_cons.1 hkeeps
    have hrest := ih hrepeats.2 hkeeps
    intro s
    show (f ((f s).andThen (chain fs)).state).andThen (chain fs) = (f s).andThen (chain fs)
    cases hd : (f s).defect with
    | none =>
      -- the rest of the chain starts from a state in which the first pass is idle
      have hidle : Idle f (chain fs (f s).state).state :=
        chain_keeps hlater _ (hrepeats.1.idle hd)
      rw [andThen_of_ok hd, andThen_of_ok hidle.defect_eq, hidle.state_eq]
      exact hrest _
    | some e =>
      rw [andThen_of_defect hd, hrepeats.1 s, andThen_of_defect hd]

/-- Behind a run of a chain without defects every pass is idle. -/
theorem idle_of_chain {fs : List (σ → Outcome σ ε)} (hrepeats : ∀ f ∈ fs, Repeats f)
    (hkeeps : fs.Pairwise fun f g => Keeps g f) {s : σ} (h : (chain fs s).defect = none) :
    ∀ f ∈ fs, Idle f (chain fs s).state := by
  induction fs generalizing s with
  | nil => simp
  | cons f fs ih =>
    rw [List.forall_mem_cons] at hrepeats ⊢
    obtain ⟨hlater, hkeeps⟩ := List.pairwise_cons.1 hkeeps
    have hchain : chain (f :: fs) s = (f s).andThen (chain fs) := rfl
    rw [hchain, andThen_defect_eq_none_iff] at h
    rw [hchain, andThen_of_ok h.1]
    exact ⟨chain_keeps hlater _ (hrepeats.1.idle h.1), ih hrepeats.2 hkeeps h.2⟩

/-- A chain of idle passes is idle. -/
theorem chain_idle {fs : List (σ → Outcome σ ε)} {s : σ} (h : ∀ f ∈ fs, Idle f s) :
    Idle (chain fs) s := by
  induction fs with
  | nil => rfl
  | cons f fs ih =>
    rw [List.forall_mem_cons] at h
    show (f s).andThen (chain fs) = ⟨s, none⟩
    rw [andThen_of_ok h.1.defect_eq, h.1.state_eq]
    exact ih h.2

/-- Of such passes the chain is idle if and only if each of them is. -/
theorem chain_idle_iff {fs : List (σ → Outcome σ ε)} (hrepeats : ∀ f ∈ fs, Repeats f)
    (hkeeps : fs.Pairwise fun f g => Keeps g f) {s : σ} :
    Idle (chain fs) s ↔ ∀ f ∈ fs, Idle f s := by
  refine ⟨fun h => ?_, chain_idle⟩
  have hpasses := idle_of_chain hrepeats hkeeps h.defect_eq
  rwa [h.state_eq] at hpasses

/-! ## Sweeps -/

/-- A sweep is idle if and only if its step is idle on every element. -/
theorem sweep_idle_iff {step : α → Outcome α ε} {as : List α} :
    Idle (sweep step) as ↔ ∀ a ∈ as, Idle step a := by
  induction as with
  | nil => simp [Idle]
  | cons a rest ih =>
    rw [List.forall_mem_cons, ← ih]
    unfold Idle
    rw [sweep_cons]
    obtain ⟨a', d⟩ := step a
    cases d with
    | none =>
      obtain ⟨rest', d'⟩ := sweep step rest
      simp [map, and_assoc]
    | some e => simp

/-- **A sweep repeats itself** if its step does. -/
theorem sweep_repeats {step : α → Outcome α ε} (h : Repeats step) : Repeats (sweep step) := by
  intro as
  induction as with
  | nil => rfl
  | cons a rest ih =>
    cases hd : (step a).defect with
    | none =>
      have hfirst : sweep step (a :: rest) = (sweep step rest).map ((step a).state :: ·) := by
        rw [sweep_cons, hd]
      rw [hfirst, map_state, sweep_cons, h a, hd, ih]
    | some e =>
      have hfirst : sweep step (a :: rest) = ⟨(step a).state :: rest, some e⟩ := by
        rw [sweep_cons, hd]
      rw [hfirst, sweep_cons, h a, hd]

/-! ## Folds -/

/-- What holds ahead of a fold and what every step keeps. -/
theorem fold_inv {step : σ → α → Outcome σ ε} (Inv : σ → Prop) {s : σ} {as : List α} (hs : Inv s)
    (hstep : ∀ s, Inv s → ∀ a ∈ as, Inv (step s a).state) : Inv (fold step s as).state := by
  induction as generalizing s with
  | nil => exact hs
  | cons a rest ih =>
    have ha := hstep s hs a (by simp)
    rw [fold_cons]
    cases (step s a).defect with
    | none => exact ih ha fun t ht x hx => hstep t ht x (by simp [hx])
    | some e => exact ha

theorem fold_append (step : σ → α → Outcome σ ε) (s : σ) (as bs : List α) :
    fold step s (as ++ bs) = (fold step s as).andThen fun s => fold step s bs := by
  induction as generalizing s with
  | nil => rfl
  | cons a rest ih =>
    rw [List.cons_append, fold_cons, fold_cons]
    cases (step s a).defect with
    | none => exact ih _
    | some e => rfl

/-- Folds inside a fold are a fold over all their items. -/
theorem fold_flatMap (step : σ → β → Outcome σ ε) (items : α → List β) (s : σ) (as : List α) :
    fold (fun s a => fold step s (items a)) s as = fold step s (as.flatMap items) := by
  induction as generalizing s with
  | nil => rfl
  | cons a rest ih =>
    rw [List.flatMap_cons, fold_append, fold_cons]
    cases hd : (fold step s (items a)).defect with
    | none => rw [andThen_of_ok hd, ih]
    | some e =>
      rw [andThen_of_defect hd]
      exact congrArg (Outcome.mk _) hd.symm

theorem fold_map (step : σ → β → Outcome σ ε) (f : α → β) (s : σ) (as : List α) :
    fold step s (as.map f) = fold (fun s a => step s (f a)) s as := by
  induction as generalizing s with
  | nil => rfl
  | cons a rest ih =>
    rw [List.map_cons, fold_cons, fold_cons, ih]

/-- Each item overwrites what it finds.  Of two items either the later one wins or their order does not
matter, and none decides whether another one has a defect. -/
structure Overwrites (step : σ → α → Outcome σ ε) : Prop where
  steady : ∀ s a b, (step (step s b).state a).defect = (step s a).defect
  again : ∀ s a, (step (step s a).state a).state = (step s a).state
  settles : ∀ s a b, (step (step s a).state b).state = (step s b).state ∨
    (step (step s a).state b).state = (step (step s b).state a).state

section Write

variable {write : σ → α → σ}
  (again : ∀ s a, write (write s a) a = write s a)
  (settles : ∀ s a b, write (write s a) b = write s b ∨ write (write s a) b = write (write s b) a)

include again settles

/-- An item that comes anyway need not come ahead of the others. -/
theorem foldl_of_mem {as : List α} {a : α} (h : a ∈ as) (s : σ) :
    as.foldl write (write s a) = as.foldl write s := by
  induction as generalizing s with
  | nil => cases h
  | cons b rest ih =>
    rw [List.foldl_cons, List.foldl_cons]
    rcases List.mem_cons.1 h with rfl | hrest
    · rw [again]
    · rcases settles s a b with hlater | hswap
      · rw [hlater]
      · rw [hswap, ih hrest]

/-- Items that come anyway need not come ahead of the others. -/
theorem foldl_of_subset {as all : List α} (h : ∀ a ∈ as, a ∈ all) (s : σ) :
    all.foldl write (as.foldl write s) = all.foldl write s := by
  induction as generalizing s with
  | nil => rfl
  | cons a rest ih =>
    rw [List.forall_mem_cons] at h
    rw [List.foldl_cons, ih h.2, foldl_of_mem again settles h.1]

/-- A fold of such items repeats itself. -/
theorem foldl_foldl (s : σ) (as : List α) :
    as.foldl write (as.foldl write s) = as.foldl write s :=
  foldl_of_subset again settles (fun _ h => h) s

end Write

/-- Two states in which the same items have defects. -/
def Alike (step : σ → α → Outcome σ ε) (s t : σ) : Prop := ∀ a, (step t a).defect = (step s a).defect

theorem Overwrites.alike_step {step : σ → α → Outcome σ ε} (h : Overwrites step) {s t : σ}
    (hst : Alike step s t) (a : α) : Alike step (step s a).state (step t a).state := by
  intro b
  rw [h.steady, h.steady, hst]

/-- The fold takes the same items in all states that are alike. -/
theorem Overwrites.exists_done {step : σ → α → Outcome σ ε} (h : Overwrites step) (s : σ)
    (as : List α) : ∃ done : List α, ∀ t, Alike step s t →
      fold step t as = ⟨done.foldl (fun s a => (step s a).state) t, (fold step s as).defect⟩ := by
  induction as generalizing s with
  | nil => exact ⟨[], fun t _ => rfl⟩
  | cons a rest ih =>
    obtain ⟨done, hdone⟩ := ih (step s a).state
    cases hd : (step s a).defect with
    | none =>
      refine ⟨a :: done, fun t ht => ?_⟩
      rw [fold_cons, fold_cons, ht a, hd, List.foldl_cons]
      exact hdone _ (h.alike_step ht a)
    | some e =>
      refine ⟨[a], fun t ht => ?_⟩
      rw [fold_cons, fold_cons, ht a, hd]
      rfl

theorem Overwrites.alike_fold {step : σ → α → Outcome σ ε} (h : Overwrites step) (s : σ)
    (as : List α) : Alike step s (fold step s as).state := by
  refine fold_inv (Alike step s) (fun _ => rfl) fun t ht b _ a => ?_
  rw [h.steady, ht]

/-- Alike states are alike to a fold as a whole. -/
theorem Overwrites.fold_defect {step : σ → α → Outcome σ ε} (h : Overwrites step) {s t : σ}
    (hst : Alike step s t) (as : List α) : (fold step t as).defect = (fold step s as).defect := by
  obtain ⟨done, hdone⟩ := h.exists_done s as
  rw [hdone t hst]

/-- **A fold repeats itself** if its items overwrite what they find. -/
theorem fold_repeats {step : σ → α → Outcome σ ε} (h : Overwrites step) (as : List α) :
    Repeats fun s => fold step s as := by
  intro s
  obtain ⟨done, hdone⟩ := h.exists_done s as
  have hfirst := hdone s fun _ => rfl
  have hsecond := hdone _ (h.alike_fold s as)
  show fold step (fold step s as).state as = fold step s as
  rw [hsecond, hfirst]
  simp only
  rw [foldl_foldl h.again h.settles]

/-! ## Threads -/

/-- A thread whose step changes its element in the same way whatever the common state is: a fold on the
state beside a sweep over the elements. -/
theorem thread_eq {step : σ → α → Outcome (σ × α) ε} {write : σ → α → Outcome σ ε} {update : α → α}
    (hstep : ∀ s a, step s a = (write s a).map fun s' => (s', update a))
    (steady : ∀ s a b, (write (write s b).state a).defect = (write s a).defect) (s : σ)
    (as : List α) :
    thread step s as =
      ⟨((fold write s as).state, (sweep (fun a => ⟨update a, (write s a).defect⟩) as).state),
        (fold write s as).defect⟩ := by
  induction as generalizing s with
  | nil => rfl
  | cons a rest ih =>
    have hsame : (fun b => (⟨update b, (write (write s a).state b).defect⟩ : Outcome α ε)) =
        fun b => ⟨update b, (write s b).defect⟩ := by
      funext b
      rw [steady]
    rw [thread_cons, fold_cons, sweep_cons, hstep]
    simp only [map_defect, map_state]
    cases (write s a).defect with
    | none => rw [ih, hsame]; rfl
    | some e => rfl

end Outcome

namespace IdMap

variable {σ ε α β : Type}

open Outcome

theorem sweep_eq_iff {m n : IdMap α} {step : α → Outcome α ε} {d : Option ε} :
    m.sweep step = ⟨n, d⟩ ↔ Outcome.sweep (onEntry step) m.entries = ⟨n.entries, d⟩ := by
  constructor
  · intro h
    cases h
    rfl
  · intro h
    unfold sweep
    simp only [h]

theorem onEntry_repeats {step : α → Outcome α ε} (h : Repeats step) : Repeats (onEntry step) := by
  intro e
  simp only [onEntry, map_state, h e.2]

/-- **A sweep over a map repeats itself** if its step does. -/
theorem sweep_repeats {step : α → Outcome α ε} (h : Repeats step) :
    Repeats fun m : IdMap α => m.sweep step := by
  intro m
  exact sweep_eq_iff.2 (Outcome.sweep_repeats (onEntry_repeats h) m.entries)

/-- A sweep over a map is idle if and only if its step is idle on every element. -/
theorem sweep_idle_iff {m : IdMap α} {step : α → Outcome α ε} :
    m.sweep step = ⟨m, none⟩ ↔ ∀ id a, m.get? id = some a → Idle step a := by
  rw [sweep_eq_iff, ← forall_entries_iff]
  have hlist : Outcome.sweep (onEntry step) m.entries = ⟨m.entries, none⟩ ↔
      ∀ e ∈ m.entries, Idle (onEntry step) e := Outcome.sweep_idle_iff
  rw [hlist]
  refine forall₂_congr fun e _ => ?_
  unfold Idle onEntry
  obtain ⟨k, a⟩ := e
  obtain ⟨a', d⟩ := step a
  simp [Outcome.map]

/-- A change of every element changes nothing if and only if it changes none. -/
theorem map_eq_self_iff {m : IdMap α} {f : String → α → α} :
    m.map f = m ↔ ∀ id a, m.get? id = some a → f id a = a := by
  constructor
  · intro h id a ha
    have hget := congrArg (·.get? id) h
    simp only [get?_map, ha, Option.map_some, Option.some.injEq] at hget
    exact hget
  · intro h
    apply ext
    intro id
    rw [get?_map]
    cases ha : m.get? id with
    | none => rfl
    | some a => rw [Option.map_some, h id a ha]

/-- A thread over a map whose step changes its element in the same way whatever the common state is. -/
theorem thread_eq {m : IdMap α} {step : σ → α → Outcome (σ × α) ε} {write : σ → α → Outcome σ ε}
    {update : α → α} (hstep : ∀ s a, step s a = (write s a).map fun s' => (s', update a))
    (steady : ∀ s a b, (write (write s b).state a).defect = (write s a).defect) (s : σ) :
    m.thread step s =
      ⟨((fold write s m.values).state, (m.sweep fun a => ⟨update a, (write s a).defect⟩).state),
        (fold write s m.values).defect⟩ := by
  have hentry : ∀ s (e : String × α), onEntryWith step s e =
      (write s e.2).map fun s' => (s', e.1, update e.2) := by
    intro s e
    simp only [onEntryWith, hstep]
    rfl
  have hentries := Outcome.thread_eq hentry (fun s a b => steady s a.2 b.2) s m.entries
  have hvalues : fold write s m.values = fold (fun s (e : String × α) => write s e.2) s m.entries :=
    Outcome.fold_map write Prod.snd s m.entries
  rw [hvalues]
  unfold thread
  simp only [hentries]
  rfl

end IdMap

end ApiModel
