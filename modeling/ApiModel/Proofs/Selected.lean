import ApiModel.Proofs.History

/-!
# The model that a selection leaves

What a selection does to a model, said of the lists and of the lookups.  The top-level lists keep what
stays; a listed service that does not stay leaves the model with its methods; a service that is left keeps
the methods that stay among those beside them; messages and enumerations are unlisted but stay registered.

Principal results:

* `SelectedFrom.unique` — this says all of it: no two models are selected in the same way;
* `applySelection_spec` — **the selection does just that**, and where no two services share a method, what
  is still listed and was registered is still registered.
-/

namespace ApiModel

/-! ## What stays -/

namespace Selection

variable {s : Selection}

/-- The top-level element stays. -/
def Stays (s : Selection) (id : String) : Prop :=
  id ∉ s.skipped ∧ (s.included = [] ∨ id ∈ s.included)

/-- The method stays in a service with the given methods: if one of them is included, others are not. -/
def StaysAmong (s : Selection) (siblings : List String) (id : String) : Prop :=
  id ∉ s.skipped ∧ ((∃ sibling ∈ siblings, sibling ∈ s.included) → id ∈ s.included)

instance (s : Selection) (id : String) : Decidable (s.Stays id) :=
  inferInstanceAs (Decidable (_ ∧ _))

instance (s : Selection) (siblings : List String) (id : String) :
    Decidable (s.StaysAmong siblings id) :=
  inferInstanceAs (Decidable (_ ∧ _))

theorem lists_eq (s : Selection) : s.lists = fun id => decide (id ∉ s.skipped) := by
  funext id
  simp [lists]

theorem keeps_eq (s : Selection) : s.keeps = fun id => decide (s.Stays id) := by
  funext id
  rw [Bool.eq_iff_iff, decide_eq_true_iff]
  simp [keeps, lists, Stays]

theorem keepsMethod_eq (s : Selection) (siblings : List String) :
    s.keepsMethod siblings = fun id => decide (s.StaysAmong siblings id) := by
  funext id
  rw [Bool.eq_iff_iff, decide_eq_true_iff]
  simp [keepsMethod, lists, StaysAmong, imp_iff_not_or]

theorem restrict_eq (s : Selection) : s.restrict = fun a =>
    { a with methods := a.methods.filter fun id => s.StaysAmong a.methods id } := by
  funext a
  rw [restrict, keepsMethod_eq]

end Selection

namespace Api

variable {api result other : Api} {s : Selection}

/-- The service is listed and does not stay. -/
def LosesService (api : Api) (s : Selection) (id : String) : Prop := id ∈ api.services ∧ ¬ s.Stays id

/-- The method is listed by a service that goes, or does not stay in one that is left. -/
def LosesMethod (api : Api) (s : Selection) (id : String) : Prop :=
  ∃ i a, api.service? i = some a ∧ id ∈ a.methods ∧
    (api.LosesService s i ∨ ¬ s.StaysAmong a.methods id)

/-- The model is the selection from another one. -/
structure SelectedFrom (api : Api) (s : Selection) (result : Api) : Prop where
  services : result.services = api.services.filter fun id => s.Stays id
  messages : result.messages = api.messages.filter fun id => s.Stays id
  enums : result.enums = api.enums.filter fun id => s.Stays id
  service_lost : ∀ id, api.LosesService s id → result.service? id = none
  service_left : ∀ id, ¬ api.LosesService s id → result.service? id = (api.service? id).map fun a =>
    { a with methods := a.methods.filter fun id => s.StaysAmong a.methods id }
  method_lost : ∀ id, api.LosesMethod s id → result.method? id = none
  method_left : ∀ id, ¬ api.LosesMethod s id → result.method? id = api.method? id
  message : ∀ id, result.message? id = (api.message? id).map fun m =>
    { m with
      messages := m.messages.filter fun id => id ∉ s.skipped
      enums := m.enums.filter fun id => id ∉ s.skipped }
  /-- Nothing else changes. -/
  rest : result = { api with
    services := result.services
    messages := result.messages
    enums := result.enums
    registry := { api.registry with
      services := result.registry.services
      methods := result.registry.methods
      messages := result.registry.messages } }

/-- The selection leaves nothing open. -/
theorem SelectedFrom.unique (h : SelectedFrom api s result) (h' : SelectedFrom api s other) :
    result = other := by
  have hservices : result.registry.services = other.registry.services := by
    apply IdMap.ext
    intro id
    by_cases hlost : api.LosesService s id
    · exact (h.service_lost id hlost).trans (h'.service_lost id hlost).symm
    · exact (h.service_left id hlost).trans (h'.service_left id hlost).symm
  have hmethods : result.registry.methods = other.registry.methods := by
    apply IdMap.ext
    intro id
    by_cases hlost : api.LosesMethod s id
    · exact (h.method_lost id hlost).trans (h'.method_lost id hlost).symm
    · exact (h.method_left id hlost).trans (h'.method_left id hlost).symm
  have hmessages : result.registry.messages = other.registry.messages :=
    IdMap.ext fun id => (h.message id).trans (h'.message id).symm
  rw [h.rest, h'.rest, h.services, h.messages, h.enums, h'.services, h'.messages, h'.enums,
    hservices, hmethods, hmessages]

/-! ## What the selection leaves -/

theorem mem_droppedServices_iff {id : String} :
    id ∈ api.droppedServices s ↔ api.LosesService s id := by
  simp [droppedServices, LosesService, Selection.keeps_eq]

theorem mem_lostBy_iff {a : Service} {id : String} :
    id ∈ s.lostBy a ↔ id ∈ a.methods ∧ ¬ s.StaysAmong a.methods id := by
  simp [Selection.lostBy, Selection.keepsMethod_eq]

theorem mem_droppedMethods_iff {id : String} :
    id ∈ api.droppedMethods s ↔ api.LosesMethod s id := by
  simp only [mem_droppedMethods, mem_droppedServices_iff, mem_lostBy_iff]
  constructor
  · rintro (⟨i, a, hlost, ha, hid⟩ | ⟨i, a, -, ha, hid, hgoes⟩)
    · exact ⟨i, a, ha, hid, .inl hlost⟩
    · exact ⟨i, a, ha, hid, .inr hgoes⟩
  · rintro ⟨i, a, ha, hid, hgoes⟩
    by_cases hlost : api.LosesService s i
    · exact .inl ⟨i, a, hlost, ha, hid⟩
    · exact .inr ⟨i, a, hlost, ha, hid, hgoes.resolve_left hlost⟩

theorem selectedFrom_applySelection (api : Api) (s : Selection) :
    SelectedFrom api s (api.applySelection s) where
  services := by rw [← Selection.keeps_eq]; rfl
  messages := by rw [← Selection.keeps_eq]; rfl
  enums := by rw [← Selection.keeps_eq]; rfl
  service_lost id hlost := by
    rw [service?_applySelection, if_pos (by simpa [mem_droppedServices_iff] using hlost)]
  service_left id hleft := by
    rw [service?_applySelection, if_neg (by simpa [mem_droppedServices_iff] using hleft)]
    rw [Selection.restrict_eq]
  method_lost id hlost := by
    rw [method?_applySelection, if_pos (by simpa [mem_droppedMethods_iff] using hlost)]
  method_left id hleft := by
    rw [method?_applySelection, if_neg (by simpa [mem_droppedMethods_iff] using hleft)]
  message id := by
    rw [message?_applySelection, Selection.lists_eq]
  rest := rfl

/-! ## What is still listed -/

/-- An element of a kind is in a list of the model, or in one of a registered element. -/
def Listed (api : Api) : ElementKind → String → Prop
  | .service, id => id ∈ api.services
  | .method, id => ∃ i a, api.service? i = some a ∧ id ∈ a.methods
  | .message, id => id ∈ api.messages ∨ ∃ i m, api.message? i = some m ∧ id ∈ m.messages
  | .enumeration, id => id ∈ api.enums ∨ ∃ i m, api.message? i = some m ∧ id ∈ m.enums

/-- What is still listed and was registered is still registered. -/
theorem registers_applySelection (howned : api.MethodsOwned) {kind : ElementKind} {id : String}
    (hlisted : (api.applySelection s).Listed kind id) (hreg : api.Registers kind id) :
    (api.applySelection s).Registers kind id := by
  cases kind with
  | service =>
    have hstays : s.Stays id := by
      have hmem := List.mem_filter.1 hlisted
      simpa [Selection.keeps_eq] using hmem.2
    have hleft : ¬ api.LosesService s id := fun h => h.2 hstays
    have hfound := (selectedFrom_applySelection api s).service_left id hleft
    show ((api.applySelection s).service? id).isSome = true
    rw [hfound, Option.isSome_map]
    exact hreg
  | method =>
    obtain ⟨i, a, ha, hid⟩ := hlisted
    obtain ⟨hi, b, hb, rfl⟩ := service?_applySelection_eq_some_iff.1 ha
    exact contains_of_keptMethod howned hi hb hid hreg
  | message =>
    exact (contains_messages_applySelection api s id).trans hreg
  | enumeration => exact hreg

/-- **The selection does what it says**, and keeps registered what is still listed. -/
theorem applySelection_spec (api : Api) (s : Selection) :
    (∀ result, SelectedFrom api s result ↔ result = api.applySelection s) ∧
      (api.MethodsOwned → ∀ kind id, (api.applySelection s).Listed kind id →
        api.Registers kind id → (api.applySelection s).Registers kind id) := by
  refine ⟨fun result => ⟨fun h => h.unique (selectedFrom_applySelection api s), ?_⟩,
    fun howned kind id hlisted hreg => registers_applySelection howned hlisted hreg⟩
  rintro rfl
  exact selectedFrom_applySelection api s

/-- Two services, and a message with a nested one. -/
def fleetHistory : List Operation := [
  .addMessage (.new "Ship" "v1" none),
  .addMessage (.new "Deck" "v1" (some (.new "Ship" "v1" none))),
  .addMessage (.new "Hull" "v1" (some (.new "Ship" "v1" none))),
  .addEnum (.new "Flag" "v1" none),
  .addService (.new "Ships" "v1") [.new (.new "Ships" "v1") "Get" ".v1.Ship" ".v1.Ship",
    .new (.new "Ships" "v1") "Sink" ".v1.Ship" ".v1.Ship"],
  .addService (.new "Ports" "v1") [.new (.new "Ports" "v1") "Get" ".v1.Ship" ".v1.Ship"]]

def fleet : Api := Operation.run { name := "fleet", package := "v1" } fleetHistory

/-- One service is included with one of its methods, and one nested message is skipped. -/
def fleetChoice : Selection :=
  { skipped := [".v1.Ship.Hull"], included := [".v1.Ship", ".v1.Ships", ".v1.Ships.Get"] }

theorem applySelection_spec_fleet :
    fleet.MethodsOwned ∧ SelectedFrom fleet fleetChoice (fleet.applySelection fleetChoice) ∧
      (fleet.applySelection fleetChoice).Listed .method ".v1.Ships.Get" ∧
      (fleet.applySelection fleetChoice).Registers .method ".v1.Ships.Get" := by
  have hadmissible : Operation.AllAdmissible { name := "fleet", package := "v1" } fleetHistory := by
    decide
  have hconsistent : fleet.Consistent :=
    consistent_of_run (consistent_new "fleet" "v1") hadmissible
  have howned : fleet.MethodsOwned := hconsistent.services.owned
  have hlisted : (fleet.applySelection fleetChoice).Listed .method ".v1.Ships.Get" :=
    ⟨".v1.Ships", _, rfl, by decide⟩
  obtain ⟨hselected, hregisters⟩ := applySelection_spec fleet fleetChoice
  exact ⟨howned, (hselected _).2 rfl, hlisted, hregisters howned .method _ hlisted rfl⟩

end Api

end ApiModel
