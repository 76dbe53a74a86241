import ApiModel.Proofs.Edit

/-!
# Scans

A scan goes through sites in a fixed order and writes at each of them.  Which sites have a defect is settled
ahead of it, so its answer is the first defect of the list, and what it leaves behind are the writes up to
the site that has it.

A pass over a model, be it a sweep, a thread or passes inside a pass, is a scan of all sites inside its
elements, one element after another.

Principal results:

* `scan_defect`, `scan_of_first` — **where a scan stops and what it has written by then**;
* `sweep_eq_scan` — a sweep over a list is a scan of its places;
* `IdMap.thread_eq_scan`, `IdMap.sweep_eq_scan` — a pass over a map is a scan of the sites inside its
  elements.
-/

namespace ApiModel

namespace Outcome

variable {σ τ ε α κ : Type}

/-- Writes at each site in order; the first one with a defect is the last. -/
def scan (write : σ → κ → σ) (defect? : κ → Option ε) (s : σ) (sites : List κ) : Outcome σ ε :=
  fold (fun s k => ⟨write s k, defect? k⟩) s sites

section Scan

variable {write : σ → κ → σ} {defect? : κ → Option ε}

theorem scan_cons (s : σ) (k : κ) (rest : List κ) :
    scan write defect? s (k :: rest) =
      match defect? k with
      | some e => ⟨write s k, some e⟩
      | none => scan write defect? (write s k) rest :=
  fold_cons _ s k rest

theorem scan_append (s : σ) (ks more : List κ) :
    scan write defect? s (ks ++ more) =
      (scan write defect? s ks).andThen fun s => scan write defect? s more :=
  fold_append _ s ks more

/-- **The defect of a scan is the first one of its sites.** -/
theorem scan_defect (s : σ) (sites : List κ) :
    (scan write defect? s sites).defect = sites.findSome? defect? := by
  induction sites generalizing s with
  | nil => rfl
  | cons k rest ih =>
    rw [scan_cons, List.findSome?_cons]
    cases defect? k with
    | none => exact ih _
    | some e => rfl

/-- **A scan that stops has written up to the site with the defect.** -/
theorem scan_of_first {before after : List κ} {k : κ} {e : ε}
    (hbefore : ∀ b ∈ before, defect? b = none) (hk : defect? k = some e) (s : σ) :
    scan write defect? s (before ++ k :: after) = ⟨(before ++ [k]).foldl write s, some e⟩ := by
  induction before generalizing s with
  | nil => rw [List.nil_append, scan_cons, hk]; rfl
  | cons b rest ih =>
    rw [List.forall_mem_cons] at hbefore
    rw [List.cons_append, scan_cons, hbefore.1]
    exact ih hbefore.2 _

theorem map_andThen {o : Outcome σ ε} {f : σ → Outcome σ ε} {φ : σ → τ} {g : τ → Outcome τ ε}
    (h : (f o.state).map φ = g (φ o.state)) : (o.andThen f).map φ = (o.map φ).andThen g := by
  unfold andThen
  rw [map_defect]
  cases o.defect with
  | none => exact h
  | some e => rfl

/-- A scan on a part of a state. -/
theorem scan_natural {write' : τ → κ → τ} {φ : σ → τ} {sites : List κ}
    (h : ∀ k ∈ sites, ∀ s, write' (φ s) k = φ (write s k)) (s : σ) :
    scan write' defect? (φ s) sites = (scan write defect? s sites).map φ := by
  induction sites generalizing s with
  | nil => rfl
  | cons k rest ih =>
    rw [List.forall_mem_cons] at h
    rw [scan_cons, scan_cons, h.1]
    cases defect? k with
    | none => exact ih h.2 _
    | some e => rfl

end Scan

theorem scan_map (write : σ → κ → σ) (defect? : κ → Option ε) (f : α → κ) (s : σ) (as : List α) :
    scan write defect? s (as.map f) = scan (fun s a => write s (f a)) (fun a => defect? (f a)) s as :=
  fold_map _ f s as

/-- A fold is a scan if an invariant settles the defects. -/
theorem fold_eq_scan {step : σ → α → Outcome σ ε} {defect? : α → Option ε} (Inv : σ → Prop) {s : σ}
    {as : List α} (hs : Inv s)
    (h : ∀ s, Inv s → ∀ a ∈ as, Inv (step s a).state ∧ (step s a).defect = defect? a) :
    fold step s as = scan (fun s a => (step s a).state) defect? s as := by
  induction as generalizing s with
  | nil => rfl
  | cons a rest ih =>
    obtain ⟨hinv, hdefect⟩ := h s hs a (by simp)
    rw [fold_cons, scan_cons, hdefect]
    cases defect? a with
    | none => exact ih hinv fun t ht b hb => h t ht b (by simp [hb])
    | some e => rfl

/-- **A sweep is a scan of the places in a list.** -/
theorem sweep_eq_scan {step : α → Outcome α ε} {defect? : Nat → Option ε} {as : List α}
    (h : ∀ (place : Nat) (a : α), as[place]? = some a → defect? place = (step a).defect) :
    sweep step as =
      scan (fun as place => as.modify place fun a => (step a).state) defect? as
        (List.range as.length) := by
  -- the elements in front are done; the places of the others start behind them
  have hrest : ∀ front rest : List α,
      (∀ (i : Nat) (a : α), rest[i]? = some a → defect? (front.length + i) = (step a).defect) →
      scan (fun as place => as.modify place fun a => (step a).state) defect? (front ++ rest)
          (List.range' front.length rest.length) =
        (sweep step rest).map (front ++ ·) := by
    intro front rest
    induction rest generalizing front with
    | nil => exact fun _ => rfl
    | cons a rest ih =>
      intro hdefects
      have hmodify : (front ++ a :: rest).modify front.length (fun a => (step a).state) =
          front ++ [(step a).state] ++ rest := by
        simp [List.modify_eq_take_drop]
      have hhere : defect? front.length = (step a).defect := hdefects 0 a rfl
      rw [List.length_cons, List.range'_succ, scan_cons, hmodify, hhere, sweep_cons]
      cases (step a).defect with
      | some e => simp [Outcome.map]
      | none =>
        have hmore := ih (front ++ [(step a).state]) fun i b hb => by
          rw [List.length_append, List.length_singleton, Nat.add_assoc, Nat.add_comm 1]
          exact hdefects (i + 1) b hb
        rw [List.length_append, List.length_singleton] at hmore
        refine hmore.trans ?_
        simp only [Outcome.map, List.append_assoc, List.singleton_append]
  have hall := hrest [] as (by simpa using h)
  rw [List.range_eq_range']
  exact hall.symm

end Outcome

namespace IdMap

variable {σ Γ ε α κ : Type}

open Outcome

theorem modify_const_of_get? {m : IdMap α} {id : String} {a : α} (h : m.get? id = some a) :
    (m.modify id fun _ => a) = m := by
  apply ext
  intro x
  rw [get?_modify]
  split
  · rename_i hx
    rw [hx, h]
    rfl
  · rfl

theorem eq_of_entries {m n : IdMap α} (h : m.entries = n.entries) : m = n :=
  ext fun id => congrArg (List.lookup id) h

/-- The entry that a change of one element changes. -/
theorem entries_modify {m : IdMap α} {front rest : List (String × α)} {id : String} {a : α}
    (h : m.entries = front ++ (id, a) :: rest) (f : α → α) :
    (m.modify id f).entries = front ++ (id, f a) :: rest := by
  have hascending := m.ascending
  unfold Ascending at hascending
  rw [h, List.map_append, List.pairwise_append] at hascending
  obtain ⟨-, hrest, hfront⟩ := hascending
  have hother : ∀ e ∈ front ++ rest, e.1 ≠ id := by
    intro e he
    rcases List.mem_append.1 he with hmem | hmem
    · exact Std.ne_of_lt (hfront e.1 (List.mem_map_of_mem hmem) id (by simp))
    · exact (Std.ne_of_lt ((List.pairwise_cons.1 hrest).1 e.1 (List.mem_map_of_mem hmem))).symm
  have hkeep : ∀ es : List (String × α), (∀ e ∈ es, e.1 ≠ id) →
      es.map (fun e => (e.1, if e.1 = id then f e.2 else e.2)) = es := by
    intro es hes
    refine (List.map_congr_left fun e he => ?_).trans (List.map_id es)
    rw [if_neg (hes e he)]
    rfl
  show m.entries.map (fun e => (e.1, if e.1 = id then f e.2 else e.2)) = _
  rw [h, List.map_append, List.map_cons, if_pos rfl, hkeep front fun e he => hother e (by simp [he]),
    hkeep rest fun e he => hother e (by simp [he])]

/-- A scan inside one element of a map, beside which a common state is passed along. -/
theorem scan_inside {m : IdMap α} {sites : List κ} {put : σ → κ → σ} {change : κ → α → α}
    {write : Γ → κ → Γ} {defect? : κ → Option ε} {whole : σ → IdMap α → Γ} {id : String} {a : α}
    (hwrite : ∀ k ∈ sites, ∀ s n, write (whole s n) k = whole (put s k) (n.modify id (change k)))
    (ha : m.get? id = some a) (s : σ) :
    scan write defect? (whole s m) sites =
      (scan (fun p k => (put p.1 k, change k p.2)) defect? (s, a) sites).map fun p =>
        whole p.1 (m.modify id fun _ => p.2) := by
  have hstart : whole s m = whole s (m.modify id fun _ => a) := by
    rw [modify_const_of_get? ha]
  -- the map is rebuilt around the element that the scan works on
  rw [hstart]
  refine scan_natural (φ := fun p : σ × α => whole p.1 (m.modify id fun _ => p.2)) ?_ (s, a)
  intro k hk p
  show write (whole p.1 (m.modify id fun _ => p.2)) k = _
  rw [hwrite k hk, modify_modify_eq]
  rfl

section Thread

variable {m : IdMap α} {step : σ → α → Outcome (σ × α) ε} {sites : String → α → List κ}
  {put : σ → κ → σ} {change : κ → α → α} {write : Γ → κ → Γ} {defect? : κ → Option ε}
  {whole : σ → IdMap α → Γ}

/-- The scan of the sites behind a place of the map: what stands ahead of it is done, and what stands behind it
is still what it was. -/
theorem scan_behind (Inv : σ → Prop)
    (hwrite : ∀ id a, m.get? id = some a → ∀ k ∈ sites id a, ∀ s n,
      write (whole s n) k = whole (put s k) (n.modify id (change k)))
    (hstep : ∀ id a, m.get? id = some a → ∀ s, Inv s → Inv (step s a).state.1 ∧
      step s a = scan (fun p k => (put p.1 k, change k p.2)) defect? (s, a) (sites id a))
    {front rest : List (String × α)} {n : IdMap α} {s : σ} (hs : Inv s)
    (hn : n.entries = front ++ rest) (hentries : ∀ e ∈ rest, m.get? e.1 = some e.2) :
    ∃ last : IdMap α,
      last.entries = front ++ (Outcome.thread (onEntryWith step) s rest).state.2 ∧
      scan write defect? (whole s n) (rest.flatMap fun e => sites e.1 e.2) =
        ⟨whole (Outcome.thread (onEntryWith step) s rest).state.1 last,
          (Outcome.thread (onEntryWith step) s rest).defect⟩ := by
  induction rest generalizing front n s with
  | nil => exact ⟨n, hn, rfl⟩
  | cons e rest ih =>
    obtain ⟨id, a⟩ := e
    rw [List.forall_mem_cons] at hentries
    have hhere : n.get? id = some a := get?_eq_some_iff.2 (by simp [hn])
    obtain ⟨hinv, hscan⟩ := hstep id a hentries.1 s hs
    rw [List.flatMap_cons, scan_append, scan_inside (hwrite id a hentries.1) hhere, ← hscan,
      thread_cons]
    have hentry := entries_modify hn fun _ => (step s a).state.2
    simp only [onEntryWith, map_defect, map_state]
    cases hdefect : (step s a).defect with
    | some e =>
      refine ⟨_, hentry, ?_⟩
      rw [andThen_of_defect ((map_defect _ _).trans hdefect)]
      exact Outcome.ext rfl hdefect
    | none =>
      have hnext : (n.modify id fun _ => (step s a).state.2).entries =
          (front ++ [(id, (step s a).state.2)]) ++ rest := by
        simpa using hentry
      obtain ⟨last, hlast, hscan⟩ := ih hinv hnext hentries.2
      refine ⟨last, by simpa using hlast, ?_⟩
      rw [andThen_of_ok ((map_defect _ _).trans hdefect)]
      exact hscan

/-- **A thread over a map is a scan of the sites inside its elements**, if it is one on each of them in every
state that may come. -/
theorem thread_eq_scan (Inv : σ → Prop) {s : σ} (hs : Inv s)
    (hwrite : ∀ id a, m.get? id = some a → ∀ k ∈ sites id a, ∀ s n,
      write (whole s n) k = whole (put s k) (n.modify id (change k)))
    (hstep : ∀ id a, m.get? id = some a → ∀ s, Inv s → Inv (step s a).state.1 ∧
      step s a = scan (fun p k => (put p.1 k, change k p.2)) defect? (s, a) (sites id a)) :
    (m.thread step s).map (fun p => whole p.1 p.2) =
      scan write defect? (whole s m) (m.entries.flatMap fun e => sites e.1 e.2) := by
  have hall : m.entries = [] ++ m.entries := rfl
  obtain ⟨last, hlast, hscan⟩ :=
    scan_behind Inv hwrite hstep hs hall fun e he => get?_eq_some_iff.2 he
  rw [hscan]
  have hsame : last = (m.thread step s).state.2 := eq_of_entries hlast
  rw [hsame]
  rfl

end Thread

/-- A sweep is a thread that passes nothing along. -/
theorem sweep_eq_thread (m : IdMap α) (step : α → Outcome α ε) :
    m.sweep step = (m.thread (fun u a => (step a).map (u, ·)) ()).map Prod.snd := by
  have hentries : ∀ entries : List (String × α), Outcome.sweep (onEntry step) entries =
      (Outcome.thread (onEntryWith fun u a => (step a).map (u, ·)) () entries).map Prod.snd := by
    intro entries
    induction entries with
    | nil => rfl
    | cons e rest ih =>
      rw [Outcome.sweep_cons, thread_cons]
      simp only [onEntry, onEntryWith, map_defect, map_state]
      cases (step e.2).defect with
      | none => rw [ih]; rfl
      | some e => rfl
  have hstate := congrArg Outcome.state (hentries m.entries)
  have hdefect := congrArg Outcome.defect (hentries m.entries)
  exact Outcome.ext (eq_of_entries hstate) hdefect

/-- **A sweep over a map is a scan of the sites inside its elements**, if it is one on each of them. -/
theorem sweep_eq_scan {m : IdMap α} {step : α → Outcome α ε} {sites : String → α → List κ}
    {change : κ → α → α} {write : Γ → κ → Γ} {defect? : κ → Option ε} {whole : IdMap α → Γ}
    (hwrite : ∀ id a, m.get? id = some a → ∀ k ∈ sites id a, ∀ n,
      write (whole n) k = whole (n.modify id (change k)))
    (hstep : ∀ id a, m.get? id = some a →
      step a = scan (fun a k => change k a) defect? a (sites id a)) :
    (m.sweep step).map whole =
      scan write defect? (whole m) (m.entries.flatMap fun e => sites e.1 e.2) := by
  have hpass : ∀ id a, m.get? id = some a → ∀ u : Unit, (step a).map (u, ·) =
      scan (fun p k => (p.1, change k p.2)) defect? (u, a) (sites id a) := by
    intro id a ha u
    rw [hstep id a ha]
    exact (scan_natural (fun _ _ _ => rfl) a).symm
  rw [sweep_eq_thread]
  exact @thread_eq_scan Unit Γ ε α κ m _ sites (fun u _ => u) change write defect? (fun _ => whole)
    (fun _ => True) () trivial (fun id a ha k hk _ => hwrite id a ha k hk)
    fun id a ha u _ => ⟨trivial, hpass id a ha u⟩

/-- A sweep over a map whose elements are sites as a whole. -/
theorem sweep_eq_scan_keys {m : IdMap α} {step : α → Outcome α ε} {site : String → κ}
    {write : Γ → κ → Γ} {defect? : κ → Option ε} {whole : IdMap α → Γ}
    (hwrite : ∀ id n, write (whole n) (site id) = whole (n.modify id fun a => (step a).state))
    (hdefect : ∀ id a, m.get? id = some a → defect? (site id) = (step a).defect) :
    (m.sweep step).map whole = scan write defect? (whole m) (m.keys.map site) := by
  have hsites : m.keys.map site = m.entries.flatMap fun e => [site e.1] := by
    unfold keys
    rw [List.map_map, List.map_eq_flatMap]
    rfl
  rw [hsites]
  refine @sweep_eq_scan _ _ _ _ m step (fun id _ => [site id]) (fun _ a => (step a).state) write
    defect? whole (fun id _ _ k hk n => ?_) fun id a ha => ?_
  · rw [List.mem_singleton.1 hk]
    exact hwrite id n
  · rw [scan_cons, hdefect id a ha]
    cases hstep : (step a).defect with
    | none => exact Outcome.ext rfl hstep
    | some e => exact Outcome.ext rfl hstep

end IdMap

end ApiModel
