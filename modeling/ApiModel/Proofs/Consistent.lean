import ApiModel.Proofs.Keyed

/-!
# Consistent models

A model keeps its elements in two places: in maps by ID, and in lists of IDs inside the API, inside
messages and inside services.  `Api.Consistent` says that the two agree.

Principal results:

* `consistent_declared` — whether a model is consistent depends on what is declared only, so that no
  analysis but the selection can matter;
* `consistent_applySelection` — a selection drops from both places alike.
-/

namespace ApiModel

/-! ## Lists of types -/

/-- The lists of IDs at the top level (`none`) and inside messages agree with the parents that the listed
elements have. -/
structure Filed (listAt : Option String → List String) (parent? : String → Option (Option String)) :
    Prop where
  /-- No list repeats an ID. -/
  nodup : ∀ place, (listAt place).Nodup
  /-- No ID is in two lists. -/
  once : ∀ place other id, id ∈ listAt place → id ∈ listAt other → place = other
  /-- What is listed is registered, and its parent is the place where it is listed. -/
  parent : ∀ place, ∀ id ∈ listAt place, parent? id = some place

namespace Filed

variable {listAt listAt' : Option String → List String}
  {parent? parent?' : String → Option (Option String)}

/-- An element has one parent, so it is in one list. -/
theorem of_parent (nodup : ∀ place, (listAt place).Nodup)
    (parent : ∀ place, ∀ id ∈ listAt place, parent? id = some place) : Filed listAt parent? where
  nodup := nodup
  once place other id hid hother := by
    have hparent := parent place id hid
    rw [parent other id hother] at hparent
    exact (Option.some.inj hparent).symm
  parent := parent

/-- Shorter lists. -/
theorem sublist (h : Filed listAt parent?) (hlist : ∀ place, (listAt' place).Sublist (listAt place)) :
    Filed listAt' parent? :=
  of_parent (fun place => (h.nodup place).sublist (hlist place))
    fun place id hid => h.parent place id ((hlist place).subset hid)

/-- One more element, which is listed at its parent if it is listed at all. -/
theorem extend (h : Filed listAt parent?) {id : String} {parent : Option String}
    (hnew : parent? id = none)
    (hlist : ∀ place, listAt' place = listAt place ∨
      place = parent ∧ listAt' place = listAt place ++ [id])
    (hparent : ∀ x, parent?' x = if x = id then some parent else parent? x) :
    Filed listAt' parent?' := by
  have hunlisted : ∀ place, id ∉ listAt place := by
    intro place hid
    rw [h.parent place id hid] at hnew
    cases hnew
  have hold : ∀ place, ∀ x ∈ listAt place, parent?' x = some place := by
    intro place x hx
    have hne : x ≠ id := fun hxid => hunlisted place (hxid ▸ hx)
    rw [hparent, if_neg hne]
    exact h.parent place x hx
  refine of_parent (fun place => ?_) fun place x hx => ?_
  · rcases hlist place with hsame | ⟨-, hmore⟩
    · rw [hsame]
      exact h.nodup place
    · rw [hmore, List.nodup_append]
      refine ⟨h.nodup place, by simp, fun x hx y hy => ?_⟩
      rw [List.mem_singleton.1 hy]
      exact fun hxid => hunlisted place (hxid ▸ hx)
  · rcases hlist place with hsame | ⟨hplace, hmore⟩
    · rw [hsame] at hx
      exact hold place x hx
    · rw [hmore] at hx
      rcases List.mem_append.1 hx with hx | hx
      · exact hold place x hx
      · rw [List.mem_singleton.1 hx, hparent, if_pos rfl, hplace]

end Filed

namespace Api

/-- The lists of IDs of one kind: the one at the top level, and those inside messages. -/
def listAt (api : Api) (top : List String) (items : Message → List String) :
    Option String → List String
  | none => top
  | some id => (api.message? id).elim [] items

/-- The IDs of the messages at the top level, or inside a message. -/
def messagesAt (api : Api) : Option String → List String := api.listAt api.messages (·.messages)

/-- The IDs of the enumerations at the top level, or inside a message. -/
def enumsAt (api : Api) : Option String → List String := api.listAt api.enums (·.enums)

theorem listAt_some (api : Api) (top : List String) (items : Message → List String) (id : String) :
    api.listAt top items (some id) = (api.message? id).elim [] items := rfl

/-- The parent of a registered message, which itself may be missing. -/
def messageParent? (api : Api) (id : String) : Option (Option String) :=
  (api.message? id).map (·.parent)

/-- The parent of a registered enumeration, which itself may be missing. -/
def enumParent? (api : Api) (id : String) : Option (Option String) :=
  (api.enum? id).map (·.parent)

/-! ## Consistency -/

/-- The list of services, the registered services and the registered methods match. -/
structure ServicesMatch (api : Api) : Prop where
  nodup : api.services.Nodup
  listed : ∀ id, id ∈ api.services ↔ api.registry.services.contains id = true
  methodsNodup : ∀ id a, api.service? id = some a → a.methods.Nodup
  owned : api.MethodsOwned
  methods : ∀ id, api.registry.methods.contains id = true ↔
    ∃ k a, api.service? k = some a ∧ id ∈ a.methods

/-- The maps and the lists of a model agree. -/
structure Consistent (api : Api) : Prop where
  keyed : api.Keyed
  services : api.ServicesMatch
  messages : Filed api.messagesAt api.messageParent?
  enums : Filed api.enumsAt api.enumParent?

variable {api other : Api} {s : Selection}

/-! ## What is declared decides -/

theorem contains_services_declared (api : Api) (id : String) :
    api.declared.registry.services.contains id = api.registry.services.contains id := by
  simp [IdMap.contains, declared]

theorem servicesMatch_declared : api.declared.ServicesMatch ↔ api.ServicesMatch := by
  have howner : ∀ id, (∃ k a, api.declared.service? k = some a ∧ id ∈ a.methods) ↔
      ∃ k a, api.service? k = some a ∧ id ∈ a.methods := by
    intro id
    constructor
    · rintro ⟨k, a, ha, hid⟩
      rw [service?_declared] at ha
      obtain ⟨b, hb, rfl⟩ := Option.map_eq_some_iff.1 ha
      exact ⟨k, b, hb, hid⟩
    · rintro ⟨k, a, ha, hid⟩
      exact ⟨k, a.bare, by rw [service?_declared, ha]; rfl, hid⟩
  constructor
  · intro h
    refine ⟨h.nodup, fun id => ?_, fun id a ha => ?_, methodsOwned_declared.1 h.owned, fun id => ?_⟩
    · rw [← contains_services_declared]
      exact h.listed id
    · exact h.methodsNodup id a.bare (by rw [service?_declared, ha]; rfl)
    · rw [← contains_methods_declared, ← howner]
      exact h.methods id
  · intro h
    refine ⟨h.nodup, fun id => ?_, fun id a ha => ?_, methodsOwned_declared.2 h.owned, fun id => ?_⟩
    · rw [contains_services_declared]
      exact h.listed id
    · rw [service?_declared] at ha
      obtain ⟨b, hb, rfl⟩ := Option.map_eq_some_iff.1 ha
      exact h.methodsNodup id b hb
    · rw [contains_methods_declared, howner]
      exact h.methods id

theorem listAt_declared (api : Api) (top : List String) {items : Message → List String}
    (h : ∀ m, items m.bare = items m) : api.declared.listAt top items = api.listAt top items := by
  funext place
  cases place with
  | none => rfl
  | some id =>
    rw [listAt_some, listAt_some, message?_declared]
    cases api.message? id with
    | none => rfl
    | some m => exact h m

theorem messagesAt_declared (api : Api) : api.declared.messagesAt = api.messagesAt :=
  listAt_declared api api.messages fun _ => rfl

theorem enumsAt_declared (api : Api) : api.declared.enumsAt = api.enumsAt :=
  listAt_declared api api.enums fun _ => rfl

theorem messageParent?_declared (api : Api) :
    api.declared.messageParent? = api.messageParent? := by
  funext id
  unfold messageParent?
  rw [message?_declared, Option.map_map]
  rfl

theorem enumParent?_declared (api : Api) : api.declared.enumParent? = api.enumParent? := by
  funext id
  unfold enumParent?
  rw [enum?_declared, Option.map_map]
  rfl

/-- Whether a model is consistent depends on what is declared only. -/
theorem consistent_declared : api.declared.Consistent ↔ api.Consistent := by
  constructor
  · rintro ⟨hkeyed, hservices, hmessages, henums⟩
    rw [messagesAt_declared, messageParent?_declared] at hmessages
    rw [enumsAt_declared, enumParent?_declared] at henums
    exact ⟨keyed_declared.1 hkeyed, servicesMatch_declared.1 hservices, hmessages, henums⟩
  · rintro ⟨hkeyed, hservices, hmessages, henums⟩
    rw [← messagesAt_declared, ← messageParent?_declared] at hmessages
    rw [← enumsAt_declared, ← enumParent?_declared] at henums
    exact ⟨keyed_declared.2 hkeyed, servicesMatch_declared.2 hservices, hmessages, henums⟩

/-- A model that declares the same is as consistent. -/
theorem Consistent.of_declared (h : api.Consistent) (hdeclared : other.declared = api.declared) :
    other.Consistent := by
  rw [← consistent_declared, hdeclared]
  exact consistent_declared.2 h

/-! ## Selections -/

theorem contains_services_applySelection (api : Api) (s : Selection) (id : String) :
    (api.applySelection s).registry.services.contains id =
      (!(api.droppedServices s).contains id && api.registry.services.contains id) := by
  have hlookup := congrArg Option.isSome (service?_applySelection api s id)
  have hcontains : (api.applySelection s).registry.services.contains id =
      ((api.applySelection s).service? id).isSome := rfl
  rw [hcontains, hlookup]
  unfold IdMap.contains service?
  cases (api.droppedServices s).contains id <;> simp

theorem contains_methods_applySelection (api : Api) (s : Selection) (id : String) :
    (api.applySelection s).registry.methods.contains id =
      (!(api.droppedMethods s).contains id && api.registry.methods.contains id) := by
  have hlookup := congrArg Option.isSome (method?_applySelection api s id)
  have hcontains : (api.applySelection s).registry.methods.contains id =
      ((api.applySelection s).method? id).isSome := rfl
  rw [hcontains, hlookup]
  unfold IdMap.contains method?
  cases (api.droppedMethods s).contains id <;> simp

/-- A service that stays is a service of the model that is not dropped, with the methods that stay. -/
theorem service?_applySelection_eq_some_iff {id : String} {a : Service} :
    (api.applySelection s).service? id = some a ↔
      id ∉ api.droppedServices s ∧ ∃ b, api.service? id = some b ∧ s.restrict b = a := by
  rw [service?_applySelection]
  by_cases hdropped : id ∈ api.droppedServices s
  · simp [hdropped]
  · simp [hdropped]

theorem servicesMatch_applySelection (h : api.ServicesMatch) (s : Selection) :
    (api.applySelection s).ServicesMatch where
  nodup := h.nodup.sublist List.filter_sublist
  listed id := by
    rw [contains_services_applySelection, Bool.and_eq_true, ← h.listed]
    have hdropped : id ∈ api.droppedServices s ↔ id ∈ api.services ∧ s.keeps id = false := by
      simp [droppedServices]
    have hkept : id ∈ (api.applySelection s).services ↔ id ∈ api.services ∧ s.keeps id = true :=
      List.mem_filter
    rw [hkept, Bool.not_eq_true', ← Bool.not_eq_true, List.contains_iff_mem, hdropped]
    cases s.keeps id <;> simp
  methodsNodup id a ha := by
    obtain ⟨-, b, hb, rfl⟩ := service?_applySelection_eq_some_iff.1 ha
    exact (h.methodsNodup id b hb).sublist List.filter_sublist
  owned i j a b ha hb id hida hidb := by
    obtain ⟨-, a', ha', rfl⟩ := service?_applySelection_eq_some_iff.1 ha
    obtain ⟨-, b', hb', rfl⟩ := service?_applySelection_eq_some_iff.1 hb
    exact h.owned i j a' b' ha' hb' id (List.mem_filter.1 hida).1 (List.mem_filter.1 hidb).1
  methods id := by
    constructor
    · intro hreg
      rw [contains_methods_applySelection, Bool.and_eq_true, Bool.not_eq_true', ← Bool.not_eq_true,
        List.contains_iff_mem, mem_droppedMethods, not_or] at hreg
      obtain ⟨⟨hservice, hlost⟩, hreg⟩ := hreg
      obtain ⟨k, a, ha, hid⟩ := (h.methods id).1 hreg
      have hk : k ∉ api.droppedServices s := fun hk => hservice ⟨k, a, hk, ha, hid⟩
      have hkeeps : s.keepsMethod a.methods id = true := by
        by_contra hnot
        refine hlost ⟨k, a, hk, ha, List.mem_filter.2 ⟨hid, ?_⟩⟩
        simpa using hnot
      exact ⟨k, s.restrict a, service?_applySelection_eq_some_iff.2 ⟨hk, a, ha, rfl⟩,
        List.mem_filter.2 ⟨hid, hkeeps⟩⟩
    · rintro ⟨k, a, ha, hid⟩
      obtain ⟨hk, b, hb, rfl⟩ := service?_applySelection_eq_some_iff.1 ha
      have hreg := (h.methods id).2 ⟨k, b, hb, (List.mem_filter.1 hid).1⟩
      exact contains_of_keptMethod h.owned hk hb hid hreg

theorem messageParent?_applySelection (api : Api) (s : Selection) :
    (api.applySelection s).messageParent? = api.messageParent? := by
  funext id
  unfold messageParent?
  rw [message?_applySelection, Option.map_map]
  rfl

theorem listAt_applySelection (api : Api) {top top' : List String} {items : Message → List String}
    (htop : top'.Sublist top) (hitems : ∀ m : Message, (items { m with
      messages := m.messages.filter s.lists, enums := m.enums.filter s.lists }).Sublist (items m))
    (place : Option String) :
    ((api.applySelection s).listAt top' items place).Sublist (api.listAt top items place) := by
  cases place with
  | none => exact htop
  | some id =>
    rw [listAt_some, listAt_some, message?_applySelection]
    cases api.message? id with
    | none => exact .refl _
    | some m => exact hitems m

/-- **A selection keeps a model consistent.** -/
theorem consistent_applySelection (h : api.Consistent) (s : Selection) :
    (api.applySelection s).Consistent where
  keyed := keyed_applySelection h.keyed s
  services := servicesMatch_applySelection h.services s
  messages := by
    rw [messageParent?_applySelection]
    exact h.messages.sublist
      (listAt_applySelection api List.filter_sublist fun _ => List.filter_sublist)
  enums := h.enums.sublist
    (listAt_applySelection api List.filter_sublist fun _ => List.filter_sublist)

end Api

end ApiModel
