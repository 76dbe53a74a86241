import ApiModel.Proofs.Selection

/-!
# Models keyed by ID

In a keyed model every element is registered under its own ID, and every resource under its type.
No analysis changes an ID, so all of them keep a model keyed: what is declared decides
(`keyed_declared`), and a selection only drops elements (`keyed_applySelection`).
-/

namespace ApiModel

/-- The elements of a map are registered under their own IDs. -/
def IdMap.KeyedBy {α : Type} (m : IdMap α) (idOf : α → String) : Prop :=
  ∀ id a, m.get? id = some a → idOf a = id

namespace IdMap

variable {α β : Type} {m : IdMap α} {idOf : α → String}

instance (m : IdMap α) (idOf : α → String) : Decidable (m.KeyedBy idOf) :=
  decidable_of_iff (∀ e ∈ m.entries, idOf e.2 = e.1)
    ⟨fun h id a ha => h (id, a) (get?_eq_some_iff.1 ha),
      fun h e he => h e.1 e.2 (get?_eq_some_iff.2 he)⟩

theorem keyedBy_empty : (∅ : IdMap α).KeyedBy idOf := by
  intro id a ha
  simp at ha

theorem keyedBy_map {f : α → β} {idOf' : β → String} (h : ∀ a, idOf' (f a) = idOf a) :
    (m.map fun _ => f).KeyedBy idOf' ↔ m.KeyedBy idOf := by
  constructor
  · intro hkeyed id a ha
    rw [← h]
    exact hkeyed id (f a) (by rw [get?_map, ha]; rfl)
  · intro hkeyed id b hb
    rw [get?_map] at hb
    obtain ⟨a, ha, rfl⟩ := Option.map_eq_some_iff.1 hb
    rw [h]
    exact hkeyed id a ha

theorem KeyedBy.filter (h : m.KeyedBy idOf) (p : String → α → Bool) :
    (m.filter p).KeyedBy idOf := by
  intro id a ha
  rw [get?_filter] at ha
  exact h id a (Option.filter_eq_some_iff.1 ha).1

theorem KeyedBy.insert (h : m.KeyedBy idOf) (a : α) : (m.insert (idOf a) a).KeyedBy idOf := by
  intro id b hb
  rw [get?_insert] at hb
  split at hb
  · rename_i hid
    obtain rfl := Option.some.inj hb
    exact hid.symm
  · exact h id b hb

end IdMap

namespace Api

/-- Every element is registered under its own ID. -/
structure Keyed (api : Api) : Prop where
  messages : api.registry.messages.KeyedBy (·.id)
  enums : api.registry.enums.KeyedBy (·.id)
  services : api.registry.services.KeyedBy (·.id)
  methods : api.registry.methods.KeyedBy (·.id)
  resources : api.registry.resources.KeyedBy (·.kind)

instance (api : Api) : Decidable api.Keyed :=
  decidable_of_iff (api.registry.messages.KeyedBy (·.id) ∧ api.registry.enums.KeyedBy (·.id) ∧
      api.registry.services.KeyedBy (·.id) ∧ api.registry.methods.KeyedBy (·.id) ∧
      api.registry.resources.KeyedBy (·.kind))
    ⟨fun ⟨messages, enums, services, methods, resources⟩ =>
      ⟨messages, enums, services, methods, resources⟩,
      fun h => ⟨h.messages, h.enums, h.services, h.methods, h.resources⟩⟩

variable {api : Api}

theorem methodsKeyed_declared : api.declared.registry.methods.KeyedBy (·.id) ↔
    api.registry.methods.KeyedBy (·.id) := IdMap.keyedBy_map fun _ => rfl

theorem keyed_declared : api.declared.Keyed ↔ api.Keyed := by
  have hmessages : api.declared.registry.messages.KeyedBy (·.id) ↔
      api.registry.messages.KeyedBy (·.id) := IdMap.keyedBy_map fun _ => rfl
  have henums : api.declared.registry.enums.KeyedBy (·.id) ↔
      api.registry.enums.KeyedBy (·.id) := IdMap.keyedBy_map fun _ => rfl
  have hservices : api.declared.registry.services.KeyedBy (·.id) ↔
      api.registry.services.KeyedBy (·.id) := IdMap.keyedBy_map fun _ => rfl
  constructor
  · intro h
    exact ⟨hmessages.1 h.messages, henums.1 h.enums, hservices.1 h.services,
      methodsKeyed_declared.1 h.methods, h.resources⟩
  · intro h
    exact ⟨hmessages.2 h.messages, henums.2 h.enums, hservices.2 h.services,
      methodsKeyed_declared.2 h.methods, h.resources⟩

theorem keyed_applySelection (h : api.Keyed) (s : Selection) : (api.applySelection s).Keyed where
  messages := (IdMap.keyedBy_map fun _ => rfl).2 h.messages
  enums := h.enums
  services := (IdMap.keyedBy_map fun _ => rfl).2 (h.services.filter _)
  methods := h.methods.filter _
  resources := h.resources

end Api

end ApiModel
