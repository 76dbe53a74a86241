import ApiModel.Proofs.Resolved
import ApiModel.Proofs.Validation

/-!
# What a selection keeps intact

A selection drops services with their methods, and single methods.  As long as no two services share a
method, a method that some service still lists is still registered.

Principal results:

* `contains_of_keptMethod` — the methods that a kept service keeps stay registered;
* `resolved_applySelection`, `valid_applySelection` — a resolved and a valid model stay so under
  any selection.
-/

namespace ApiModel

namespace Api

variable {api : Api} {s : Selection}

/-- No two registered services list the same method. -/
def MethodsOwned (api : Api) : Prop :=
  ∀ i j a b, api.service? i = some a → api.service? j = some b →
    ∀ id ∈ a.methods, id ∈ b.methods → i = j

/-- A single service has no other to share a method with. -/
theorem methodsOwned_of_single {entry : String × Service}
    (h : api.registry.services.entries = [entry]) : api.MethodsOwned := by
  intro i j a b ha hb _ _ _
  have hi := List.mem_singleton.1 (h ▸ IdMap.get?_eq_some_iff.1 ha)
  have hj := List.mem_singleton.1 (h ▸ IdMap.get?_eq_some_iff.1 hb)
  exact (congrArg Prod.fst hi).trans (congrArg Prod.fst hj).symm

theorem methodsOwned_declared : api.declared.MethodsOwned ↔ api.MethodsOwned := by
  constructor
  · intro h i j a b ha hb id hida hidb
    exact h i j a.bare b.bare (by rw [service?_declared, ha]; rfl)
      (by rw [service?_declared, hb]; rfl) id hida hidb
  · intro h i j a b ha hb id hida hidb
    rw [service?_declared] at ha hb
    obtain ⟨a', ha', rfl⟩ := Option.map_eq_some_iff.1 ha
    obtain ⟨b', hb', rfl⟩ := Option.map_eq_some_iff.1 hb
    exact h i j a' b' ha' hb' id hida hidb

/-! ## Lookups behind a selection -/

theorem service?_applySelection (api : Api) (s : Selection) (id : String) :
    (api.applySelection s).service? id =
      if (api.droppedServices s).contains id then none else (api.service? id).map s.restrict := by
  simp only [service?, applySelection, keptServices, IdMap.get?_map, IdMap.get?_filter]
  cases api.registry.services.get? id with
  | none => simp
  | some a => cases (api.droppedServices s).contains id <;> simp [Option.filter]

theorem method?_applySelection (api : Api) (s : Selection) (id : String) :
    (api.applySelection s).method? id =
      if (api.droppedMethods s).contains id then none else api.method? id := by
  simp only [method?, applySelection, IdMap.get?_filter]
  cases api.registry.methods.get? id with
  | none => simp
  | some m => cases (api.droppedMethods s).contains id <;> simp [Option.filter]

theorem message?_applySelection (api : Api) (s : Selection) (id : String) :
    (api.applySelection s).message? id = (api.message? id).map fun m =>
      { m with messages := m.messages.filter s.lists, enums := m.enums.filter s.lists } := by
  simp [message?, applySelection]

theorem contains_messages_applySelection (api : Api) (s : Selection) (id : String) :
    (api.applySelection s).registry.messages.contains id = api.registry.messages.contains id := by
  simp [IdMap.contains, applySelection]

/-! ## Methods that stay -/

/-- A method that is dropped belongs to a dropped service, or its own service does not keep it. -/
theorem mem_droppedMethods {id : String} :
    id ∈ api.droppedMethods s ↔
      (∃ i a, i ∈ api.droppedServices s ∧ api.service? i = some a ∧ id ∈ a.methods) ∨
      (∃ i a, i ∉ api.droppedServices s ∧ api.service? i = some a ∧ id ∈ s.lostBy a) := by
  unfold droppedMethods
  rw [List.mem_append, List.mem_flatMap, List.mem_flatMap]
  refine or_congr ?_ ?_
  · simp only [List.mem_filterMap]
    constructor
    · rintro ⟨a, ⟨i, hi, ha⟩, hid⟩
      exact ⟨i, a, hi, ha, hid⟩
    · rintro ⟨i, a, hi, ha, hid⟩
      exact ⟨a, ⟨i, hi, ha⟩, hid⟩
  · simp only [IdMap.mem_values_iff, keptServices, IdMap.get?_filter, Option.filter_eq_some_iff]
    constructor
    · rintro ⟨a, ⟨i, ha, hi⟩, hid⟩
      exact ⟨i, a, by simpa using hi, ha, hid⟩
    · rintro ⟨i, a, hi, ha, hid⟩
      exact ⟨a, ⟨i, ha, by simpa using hi⟩, hid⟩

/-- **A method that a kept service keeps stays registered.** -/
theorem contains_of_keptMethod (howned : api.MethodsOwned) {i : String} {a : Service}
    (hi : i ∉ api.droppedServices s) (ha : api.service? i = some a) {id : String}
    (hid : id ∈ (s.restrict a).methods) (hreg : api.registry.methods.contains id = true) :
    (api.applySelection s).registry.methods.contains id = true := by
  obtain ⟨hlisted, hkeeps⟩ := List.mem_filter.1 hid
  have hstays : id ∉ api.droppedMethods s := by
    rw [mem_droppedMethods]
    rintro (⟨j, b, hj, hb, hidb⟩ | ⟨j, b, -, hb, hidb⟩)
    · obtain rfl := howned i j a b ha hb id hlisted hidb
      exact hi hj
    · obtain ⟨hidb, hlost⟩ := List.mem_filter.1 hidb
      obtain rfl := howned i j a b ha hb id hlisted hidb
      obtain rfl := Option.some.inj (ha.symm.trans hb)
      simp [hkeeps] at hlost
  have hlookup := method?_applySelection api s id
  rw [if_neg (by simpa using hstays)] at hlookup
  unfold IdMap.contains at hreg ⊢
  rwa [← show (api.applySelection s).method? id = api.registry.methods.get? id from hlookup] at hreg

/-! ## The model that stays -/

theorem resolved_applySelection (h : api.Resolved) (howned : api.MethodsOwned) :
    (api.applySelection s).Resolved := by
  refine ⟨?_, ?_, ?_⟩
  · intro id m hm
    rw [message?_applySelection] at hm
    obtain ⟨n, hn, rfl⟩ := Option.map_eq_some_iff.1 hm
    obtain ⟨hmessages, henums, hmembers⟩ := h.messages id n hn
    refine ⟨?_, henums, hmembers⟩
    intro f hf hkind
    rw [contains_messages_applySelection]
    exact hmessages f hf hkind
  · intro id m hm
    rw [method?_applySelection] at hm
    split at hm
    · cases hm
    · obtain ⟨hinput, houtput⟩ := h.methods id m hm
      exact ⟨by rwa [contains_messages_applySelection],
        by rwa [contains_messages_applySelection]⟩
  · intro id a ha listed hlisted
    rw [service?_applySelection] at ha
    split at ha
    · cases ha
    · rename_i hkept
      obtain ⟨b, hb, rfl⟩ := Option.map_eq_some_iff.1 ha
      have hreg := h.services id b hb listed (List.mem_filter.1 hlisted).1
      exact contains_of_keptMethod howned (by simpa using hkept) hb hlisted hreg

theorem walkable_applySelection {id : String} (h : api.Walkable id) :
    (api.applySelection s).Walkable id := by
  induction h with
  | @intro id m found package enums nested ih =>
    have hfound := message?_applySelection api s id
    rw [found, Option.map_some] at hfound
    refine .intro _ hfound package ?_ ?_
    · intro e he
      exact enums e (List.mem_filter.1 he).1
    · intro n hn
      exact ih n (List.mem_filter.1 hn).1

theorem valid_applySelection (h : api.Valid) (howned : api.MethodsOwned) :
    (api.applySelection s).Valid := by
  refine ⟨?_, ?_, ?_⟩
  · intro id hid
    obtain ⟨hlisted, hkeeps⟩ := List.mem_filter.1 hid
    have hkept : id ∉ api.droppedServices s := by simp [droppedServices, hkeeps]
    obtain ⟨a, ha, package, methods⟩ := h.services id hlisted
    refine ⟨s.restrict a, ?_, package, ?_⟩
    · rw [service?_applySelection, if_neg (by simpa using hkept), ha]
      rfl
    · intro listed hmethod
      exact contains_of_keptMethod howned hkept ha hmethod
        (methods listed (List.mem_filter.1 hmethod).1)
  · intro id hid
    exact walkable_applySelection (h.messages id (List.mem_filter.1 hid).1)
  · intro id hid
    exact h.enums id (List.mem_filter.1 hid).1

end Api

end ApiModel
