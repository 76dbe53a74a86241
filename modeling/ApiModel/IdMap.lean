/-!
# Maps keyed by ID

A finite map from IDs to elements, kept as a list with strictly ascending keys, so that every walk
over the map goes in ID order and two maps with the same contents are equal.

Principal results: `get?_insert`, `get?_filter`, `get?_modify`, `get?_map` — each operation through the
view `get?` — and `ext`: **maps that agree on every ID are equal**.
-/

namespace ApiModel

universe u v

/-- Keys strictly ascending; IDs are compared character by character. -/
def Ascending {α : Type u} (entries : List (String × α)) : Prop :=
  (entries.map Prod.fst).Pairwise (· < ·)

/-- A map from IDs to elements. -/
structure IdMap (α : Type u) where
  entries : List (String × α)
  ascending : Ascending entries

namespace IdMap

variable {α : Type u} {β : Type v}

/-! ## Entries -/

/-- Puts an element at its place, over the one that was there. -/
def place (id : String) (a : α) : List (String × α) → List (String × α)
  | [] => [(id, a)]
  | e :: rest =>
    if id = e.1 then (id, a) :: rest
    else if id < e.1 then (id, a) :: e :: rest
    else e :: place id a rest

theorem mem_keys_place {id x : String} {a : α} {entries : List (String × α)} :
    x ∈ (place id a entries).map Prod.fst ↔ x = id ∨ x ∈ entries.map Prod.fst := by
  induction entries with
  | nil => simp [place]
  | cons e rest ih =>
    simp only [place]
    split
    · next h => simp [h]
    · split
      · simp
      · simp only [List.map_cons, List.mem_cons, ih]
        constructor
        · rintro (h | h | h) <;> simp [h]
        · rintro (h | h | h) <;> simp [h]

theorem lt_of_not_lt_of_ne {a b : String} (hne : a ≠ b) (hlt : ¬ a < b) : b < a := by
  rcases Std.lt_trichotomy a b with h | h | h
  · exact absurd h hlt
  · exact absurd h hne
  · exact h

theorem ascending_place {id : String} {a : α} {entries : List (String × α)}
    (h : Ascending entries) : Ascending (place id a entries) := by
  induction entries with
  | nil => simp [place, Ascending]
  | cons e rest ih =>
    simp only [Ascending, List.map_cons, List.pairwise_cons] at h ⊢
    obtain ⟨hfirst, hrest⟩ := h
    simp only [place]
    split
    · next heq =>
      simp only [List.map_cons, List.pairwise_cons]
      exact ⟨fun x hx => heq ▸ hfirst x hx, hrest⟩
    · next hne =>
      split
      · next hlt =>
        simp only [List.map_cons, List.pairwise_cons]
        refine ⟨fun x hx => ?_, hfirst, hrest⟩
        rcases List.mem_cons.1 hx with rfl | hx
        · exact hlt
        · exact String.lt_trans hlt (hfirst x hx)
      · next hlt =>
        simp only [List.map_cons, List.pairwise_cons]
        refine ⟨fun x hx => ?_, ih hrest⟩
        rcases mem_keys_place.1 hx with rfl | hx
        · exact lt_of_not_lt_of_ne hne hlt
        · exact hfirst x hx

theorem ascending_filter {p : String × α → Bool} {entries : List (String × α)}
    (h : Ascending entries) : Ascending (entries.filter p) :=
  h.sublist (List.filter_sublist.map Prod.fst)

theorem ascending_of_keys_eq {entries : List (String × α)} {others : List (String × β)}
    (h : Ascending entries) (hkeys : others.map Prod.fst = entries.map Prod.fst) :
    Ascending others := by
  simpa [Ascending, hkeys] using h

/-! ## Operations -/

def empty : IdMap α := ⟨[], List.Pairwise.nil⟩

instance : EmptyCollection (IdMap α) := ⟨empty⟩

instance : Inhabited (IdMap α) := ⟨empty⟩

/-- The element with an ID. -/
def get? (m : IdMap α) (id : String) : Option α := m.entries.lookup id

/-- The ID is registered. -/
def contains (m : IdMap α) (id : String) : Bool := (m.get? id).isSome

/-- The IDs, ascending. -/
def keys (m : IdMap α) : List String := m.entries.map Prod.fst

/-- The elements in the order of their IDs. -/
def values (m : IdMap α) : List α := m.entries.map Prod.snd

def size (m : IdMap α) : Nat := m.entries.length

/-- Registers an element, over the one with the same ID. -/
def insert (m : IdMap α) (id : String) (a : α) : IdMap α :=
  ⟨place id a m.entries, ascending_place m.ascending⟩

/-- Keeps the elements that pass a test. -/
def filter (m : IdMap α) (p : String → α → Bool) : IdMap α :=
  ⟨m.entries.filter fun e => p e.1 e.2, ascending_filter m.ascending⟩

/-- Drops the element with an ID. -/
def erase (m : IdMap α) (id : String) : IdMap α := m.filter fun k _ => k != id

/-- Changes every element, its ID staying. -/
def map (m : IdMap α) (f : String → α → β) : IdMap β :=
  ⟨m.entries.map fun e => (e.1, f e.1 e.2),
    ascending_of_keys_eq m.ascending (by simp [Function.comp_def])⟩

/-- Changes the element with an ID, if there is one. -/
def modify (m : IdMap α) (id : String) (f : α → α) : IdMap α :=
  m.map fun k a => if k = id then f a else a

/-- The map of a list of entries; of entries with one ID the last stays. -/
def ofList (entries : List (String × α)) : IdMap α :=
  entries.foldl (fun m e => m.insert e.1 e.2) ∅

def toList (m : IdMap α) : List (String × α) := m.entries

/-! ## Laws -/

theorem lookup_cons_eq (k x : String) (a : α) (rest : List (String × α)) :
    ((k, a) :: rest).lookup x = if x = k then some a else rest.lookup x := by
  rw [List.lookup_cons]
  by_cases h : x = k
  · simp [h]
  · simp [h, beq_eq_false_iff_ne.2 h]

theorem lookup_place (id x : String) (a : α) (entries : List (String × α)) :
    (place id a entries).lookup x = if x = id then some a else entries.lookup x := by
  induction entries with
  | nil => rw [place, lookup_cons_eq]
  | cons e rest ih =>
    obtain ⟨k, b⟩ := e
    simp only [place]
    split
    · next heq => subst heq; simp only [lookup_cons_eq]; split <;> rfl
    · next hne =>
      split
      · simp only [lookup_cons_eq]
      · simp only [lookup_cons_eq, ih]
        by_cases h : x = id
        · subst h; simp [hne]
        · simp [h]

@[simp]
theorem get?_empty (x : String) : (∅ : IdMap α).get? x = none := rfl

@[simp]
theorem get?_insert (m : IdMap α) (id x : String) (a : α) :
    (m.insert id a).get? x = if x = id then some a else m.get? x :=
  lookup_place id x a m.entries

@[simp]
theorem get?_map (m : IdMap α) (f : String → α → β) (x : String) :
    (m.map f).get? x = (m.get? x).map (f x) := by
  simp only [get?, map]
  induction m.entries with
  | nil => rfl
  | cons e rest ih =>
    obtain ⟨k, b⟩ := e
    simp only [List.map_cons, lookup_cons_eq, ih]
    by_cases hx : x = k
    · subst hx; simp
    · simp [hx]

@[simp]
theorem get?_modify (m : IdMap α) (id x : String) (f : α → α) :
    (m.modify id f).get? x = if x = id then (m.get? x).map f else m.get? x := by
  by_cases h : x = id <;> simp [modify, h]

@[simp]
theorem keys_map (m : IdMap α) (f : String → α → β) : (m.map f).keys = m.keys := by
  simp [keys, map, Function.comp_def]

@[simp]
theorem keys_modify (m : IdMap α) (id : String) (f : α → α) : (m.modify id f).keys = m.keys :=
  keys_map _ _

theorem get?_eq_some_iff {m : IdMap α} {id : String} {a : α} :
    m.get? id = some a ↔ (id, a) ∈ m.entries := by
  obtain ⟨entries, hasc⟩ := m
  simp only [get?]
  induction entries with
  | nil => simp
  | cons e rest ih =>
    obtain ⟨k, b⟩ := e
    simp only [Ascending, List.map_cons, List.pairwise_cons] at hasc
    have ih := ih hasc.2
    rw [lookup_cons_eq]
    by_cases h : id = k
    · subst h
      simp only [if_true, Option.some.injEq, List.mem_cons, Prod.mk.injEq, true_and]
      constructor
      · rintro rfl; simp
      · rintro (rfl | hm)
        · rfl
        · exact absurd (hasc.1 id (List.mem_map.2 ⟨_, hm, rfl⟩)) (String.lt_irrefl _)
    · simp [h, ih]

@[simp]
theorem get?_filter (m : IdMap α) (p : String → α → Bool) (x : String) :
    (m.filter p).get? x = (m.get? x).filter (p x) := by
  apply Option.ext
  intro a
  simp [get?_eq_some_iff, Option.filter_eq_some_iff, filter]

@[simp]
theorem get?_erase (m : IdMap α) (id x : String) :
    (m.erase id).get? x = if x = id then none else m.get? x := by
  by_cases h : x = id <;> cases hx : m.get? x <;> simp [erase, h, hx]

theorem mem_keys_iff {m : IdMap α} {id : String} : id ∈ m.keys ↔ m.contains id = true := by
  simp only [keys, contains, List.mem_map, Option.isSome_iff_exists, get?_eq_some_iff]
  constructor
  · rintro ⟨e, he, rfl⟩; exact ⟨e.2, he⟩
  · rintro ⟨a, ha⟩; exact ⟨_, ha, rfl⟩

theorem mem_values_iff {m : IdMap α} {a : α} : a ∈ m.values ↔ ∃ id, m.get? id = some a := by
  simp only [values, List.mem_map, get?_eq_some_iff]
  constructor
  · rintro ⟨e, he, rfl⟩; exact ⟨e.1, he⟩
  · rintro ⟨id, ha⟩; exact ⟨_, ha, rfl⟩

/-- **Maps that agree on every ID are equal.** -/
theorem ext {m n : IdMap α} (h : ∀ id, m.get? id = n.get? id) : m = n := by
  obtain ⟨xs, hx⟩ := m
  obtain ⟨ys, hy⟩ := n
  have hmem : ∀ e : String × α, e ∈ xs ↔ e ∈ ys := fun e => by
    have hm : (⟨xs, hx⟩ : IdMap α).get? e.1 = some e.2 ↔ e ∈ xs := get?_eq_some_iff
    have hn : (⟨ys, hy⟩ : IdMap α).get? e.1 = some e.2 ↔ e ∈ ys := get?_eq_some_iff
    exact hm.symm.trans ((h e.1) ▸ hn)
  suffices xs = ys by subst this; rfl
  clear h
  have least : ∀ {e : String × α} {rest : List (String × α)}, Ascending (e :: rest) →
      ∀ d ∈ rest, e.1 < d.1 := fun h d hd =>
    (List.pairwise_cons.1 h).1 d.1 (List.mem_map.2 ⟨d, hd, rfl⟩)
  induction xs generalizing ys with
  | nil =>
    cases ys with
    | nil => rfl
    | cons d _ => exact absurd ((hmem d).2 (by simp)) (by simp)
  | cons e xs ih =>
    cases ys with
    | nil => exact absurd ((hmem e).1 (by simp)) (by simp)
    | cons d ys =>
      have hed : e = d := by
        rcases List.mem_cons.1 ((hmem e).1 (by simp)) with h | h
        · exact h
        · rcases List.mem_cons.1 ((hmem d).2 (by simp)) with h' | h'
          · exact h'.symm
          · exact absurd (String.lt_trans (least hx d h') (least hy e h)) (String.lt_irrefl _)
      subst hed
      congr 1
      refine ih (List.pairwise_cons.1 hx).2 ys (List.pairwise_cons.1 hy).2 fun z => ?_
      constructor
      · intro hz
        rcases List.mem_cons.1 ((hmem z).1 (by simp [hz])) with rfl | h
        · exact absurd (least hx z hz) (String.lt_irrefl _)
        · exact h
      · intro hz
        rcases List.mem_cons.1 ((hmem z).2 (by simp [hz])) with rfl | h
        · exact absurd (least hy z hz) (String.lt_irrefl _)
        · exact h

end IdMap

end ApiModel
