import ApiModel.Proofs.Consistent
import ApiModel.Proofs.Inventory

/-!
# Builders

A builder registers an element, and lists it at its parent or at the top level.  When what it adds is new
to the model, it keeps the model consistent.

Principal results:

* `Nests.listAt_append` — listing a type appends to no list but that at its parent;
* `consistent_addMessage`, `consistent_addEnum` and their kin for dependencies;
* `consistent_addService`, `consistent_addResourceDefinition`.
-/

namespace ApiModel

namespace Api

variable {api listed other : Api}

/-! ## Listing inside a parent -/

/-- The model with the message `parent` changed, if there is one. -/
structure Nests (api listed : Api) (parent : Option String) (change : Message → Message) :
    Prop where
  lookup : ∀ id, listed.message? id =
    (api.message? id).map fun p => if parent = some id then change p else p
  services : listed.services = api.services
  registry : ∃ messages, listed.registry = { api.registry with messages := messages }

namespace Nests

variable {parent : Option String} {change : Message → Message}

/-- Nothing changes inside messages. -/
theorem refl (api : Api) (hregistry : listed.registry = api.registry)
    (hservices : listed.services = api.services) : Nests api listed none change where
  lookup id := by
    unfold message?
    simp [hregistry]
  services := hservices
  registry := ⟨_, hregistry⟩

theorem modify (api : Api) (id : String) (change : Message → Message) :
    Nests api { api with registry.messages := api.registry.messages.modify id change } (some id)
      change where
  lookup x := by
    show (api.registry.messages.modify id change).get? x = _
    rw [IdMap.get?_modify]
    by_cases hx : x = id
    · simp [hx, message?]
    · simp [hx, Ne.symm hx, message?]
  services := rfl
  registry := ⟨_, rfl⟩

theorem messageParent? (h : Nests api listed parent change)
    (hchange : ∀ p, (change p).parent = p.parent) : listed.messageParent? = api.messageParent? := by
  funext id
  unfold Api.messageParent?
  rw [h.lookup, Option.map_map]
  congr 1
  funext p
  simp only [Function.comp_apply]
  split
  · exact hchange p
  · rfl

theorem enumParent? (h : Nests api listed parent change) : listed.enumParent? = api.enumParent? := by
  obtain ⟨messages, hregistry⟩ := h.registry
  funext id
  unfold Api.enumParent? enum?
  rw [hregistry]

theorem keyed (h : Nests api listed parent change) (hchange : ∀ p, (change p).id = p.id)
    (hkeyed : api.Keyed) : listed.Keyed := by
  have hmessages : listed.registry.messages.KeyedBy (·.id) := by
    intro id p hp
    obtain ⟨q, hq, rfl⟩ := Option.map_eq_some_iff.1 ((h.lookup id).symm.trans hp)
    have hid : q.id = id := hkeyed.messages id q hq
    show (if parent = some id then change q else q).id = id
    split
    · rw [hchange, hid]
    · exact hid
  obtain ⟨messages, hregistry⟩ := h.registry
  refine ⟨hmessages, ?_, ?_, ?_, ?_⟩
  · rw [hregistry]
    exact hkeyed.enums
  · rw [hregistry]
    exact hkeyed.services
  · rw [hregistry]
    exact hkeyed.methods
  · rw [hregistry]
    exact hkeyed.resources

/-- The lists that the change leaves alone. -/
theorem listAt_eq (h : Nests api listed parent change) (top : List String)
    {items : Message → List String} (hchange : ∀ p, items (change p) = items p) :
    listed.listAt top items = api.listAt top items := by
  funext place
  cases place with
  | none => rfl
  | some id =>
    rw [listAt_some, listAt_some, h.lookup]
    cases api.message? id with
    | none => rfl
    | some p =>
      rw [Option.map_some, Option.elim_some, Option.elim_some]
      split
      · exact hchange p
      · rfl

/-- The lists that the change appends to: no other one than that at the parent. -/
theorem listAt_append (h : Nests api listed parent change) {top top' : List String}
    {items : Message → List String} {id : String}
    (htop : top' = top ∨ parent = none ∧ top' = top ++ [id])
    (hchange : ∀ p, items (change p) = items p ++ [id]) (place : Option String) :
    listed.listAt top' items place = api.listAt top items place ∨
      place = parent ∧ listed.listAt top' items place = api.listAt top items place ++ [id] := by
  cases place with
  | none => exact htop.imp_right fun ⟨hparent, hmore⟩ => ⟨hparent.symm, hmore⟩
  | some x =>
    rw [listAt_some, listAt_some, h.lookup]
    cases api.message? x with
    | none => exact .inl rfl
    | some p =>
      rw [Option.map_some, Option.elim_some, Option.elim_some]
      by_cases hparent : parent = some x
      · right
        rw [if_pos hparent]
        exact ⟨hparent.symm, hchange p⟩
      · left
        rw [if_neg hparent]

end Nests

/-- A builder that leaves services alone. -/
theorem ServicesMatch.of_eq (h : api.ServicesMatch) (hlist : other.services = api.services)
    (hservices : other.registry.services = api.registry.services)
    (hmethods : other.registry.methods = api.registry.methods) : other.ServicesMatch := by
  have hlookup : other.service? = api.service? := by
    funext id
    unfold service?
    rw [hservices]
  have howned : other.MethodsOwned := by
    unfold MethodsOwned
    rw [hlookup]
    exact h.owned
  refine ⟨?_, ?_, ?_, howned, ?_⟩
  · rw [hlist]
    exact h.nodup
  · rw [hlist, hservices]
    exact h.listed
  · rw [hlookup]
    exact h.methodsNodup
  · rw [hmethods, hlookup]
    exact h.methods

theorem Nests.servicesMatch {parent : Option String} {change : Message → Message}
    (h : Nests api listed parent change) (hmatch : api.ServicesMatch) : listed.ServicesMatch := by
  obtain ⟨messages, hregistry⟩ := h.registry
  refine hmatch.of_eq h.services ?_ ?_
  · rw [hregistry]
  · rw [hregistry]

/-! ## Messages -/

theorem nests_listMessage (api : Api) (m : Message) :
    Nests api (api.listMessage m) m.parent fun p => { p with messages := p.messages ++ [m.id] } := by
  unfold listMessage
  cases m.parent with
  | none => exact .refl api (by rfl) (by rfl)
  | some parent => exact .modify api parent _

theorem messages_listMessage (api : Api) (m : Message) :
    (api.listMessage m).messages = api.messages ∨
      m.parent = none ∧ (api.listMessage m).messages = api.messages ++ [m.id] := by
  unfold listMessage
  cases m.parent with
  | none => exact .inr ⟨rfl, rfl⟩
  | some parent => exact .inl rfl

theorem message?_addDependencyMessage (api : Api) (m : Message) (id : String) :
    (api.addDependencyMessage m).message? id = if id = m.id then some m else api.message? id := by
  unfold message?
  rw [(addDependencyMessage_registry api m).1, IdMap.get?_insert]

/-- No list shows inside a message before it is registered, and an empty one does not show then. -/
theorem listAt_addDependencyMessage {m : Message} {items : Message → List String}
    (hnew : api.message? m.id = none) (hempty : items m = []) (top : List String) :
    (api.addDependencyMessage m).listAt top items = api.listAt top items := by
  funext place
  cases place with
  | none => rfl
  | some id =>
    rw [listAt_some, listAt_some, message?_addDependencyMessage]
    split
    · rename_i hid
      rw [hid, hnew]
      exact hempty
    · rfl

theorem keyed_addDependencyMessage (h : api.Keyed) (m : Message) :
    (api.addDependencyMessage m).Keyed := by
  obtain ⟨hmessages, henums, hservices, hmethods⟩ := addDependencyMessage_registry api m
  refine ⟨?_, ?_, ?_, ?_, ?_⟩
  · rw [hmessages]
    exact h.messages.insert m
  · rw [henums]
    exact h.enums
  · rw [hservices]
    exact h.services
  · rw [hmethods]
    exact h.methods
  · unfold addDependencyMessage
    cases m.resource with
    | none => exact h.resources
    | some r => exact h.resources.insert r

/-- The message is new to the model, and nothing is nested in it yet. -/
structure NewMessage (api : Api) (m : Message) : Prop where
  unregistered : api.registry.messages.contains m.id = false
  messages : m.messages = []
  enums : m.enums = []

instance (api : Api) (m : Message) : Decidable (api.NewMessage m) :=
  decidable_of_iff
    (api.registry.messages.contains m.id = false ∧ m.messages = [] ∧ m.enums = [])
    ⟨fun ⟨unregistered, messages, enums⟩ => ⟨unregistered, messages, enums⟩,
      fun h => ⟨h.unregistered, h.messages, h.enums⟩⟩

theorem get?_eq_none_of_contains {α : Type} {m : IdMap α} {id : String}
    (h : m.contains id = false) : m.get? id = none := by
  unfold IdMap.contains at h
  simpa using h

/-- Registering a message behind listing it. -/
theorem consistent_register {m : Message} (h : api.Consistent) (hm : api.NewMessage m)
    {change : Message → Message} (hnests : Nests api listed m.parent change)
    (hid : ∀ p, (change p).id = p.id) (hparent : ∀ p, (change p).parent = p.parent)
    (henums : ∀ p, (change p).enums = p.enums) (htop : listed.enums = api.enums)
    (hlist : ∀ place, listed.messagesAt place = api.messagesAt place ∨
      place = m.parent ∧ listed.messagesAt place = api.messagesAt place ++ [m.id]) :
    (listed.addDependencyMessage m).Consistent := by
  obtain ⟨-, hregEnums, hregServices, hregMethods⟩ := addDependencyMessage_registry listed m
  have hlisting := listing_addDependencyMessage listed m
  have hnew : api.message? m.id = none := get?_eq_none_of_contains hm.unregistered
  have hstill : listed.message? m.id = none := by
    rw [hnests.lookup, hnew]
    rfl
  have hmessagesAt : (listed.addDependencyMessage m).messagesAt = listed.messagesAt := by
    unfold messagesAt
    rw [show (listed.addDependencyMessage m).messages = listed.messages from
      congrArg Listing.messages hlisting]
    exact listAt_addDependencyMessage hstill hm.messages _
  have henumsAt : (listed.addDependencyMessage m).enumsAt = api.enumsAt := by
    unfold enumsAt
    rw [show (listed.addDependencyMessage m).enums = api.enums from
      (congrArg Listing.enums hlisting).trans htop, listAt_addDependencyMessage hstill hm.enums]
    exact hnests.listAt_eq _ henums
  have henumParent : (listed.addDependencyMessage m).enumParent? = api.enumParent? := by
    rw [← hnests.enumParent?]
    funext id
    unfold enumParent? enum?
    rw [hregEnums]
  refine ⟨?_, ?_, ?_, ?_⟩
  · exact keyed_addDependencyMessage (hnests.keyed hid h.keyed) m
  · exact (hnests.servicesMatch h.services).of_eq (congrArg Listing.services hlisting) hregServices
      hregMethods
  · rw [hmessagesAt]
    have hunparented : api.messageParent? m.id = none := by
      unfold messageParent?
      rw [hnew]
      rfl
    refine h.messages.extend hunparented hlist fun x => ?_
    rw [← hnests.messageParent? hparent]
    unfold messageParent?
    rw [message?_addDependencyMessage]
    split <;> rfl
  · rw [henumsAt, henumParent]
    exact h.enums

theorem consistent_addDependencyMessage {m : Message} (h : api.Consistent)
    (hm : api.NewMessage m) : (api.addDependencyMessage m).Consistent := by
  have hnests : Nests api api m.parent id := by
    refine ⟨fun x => ?_, rfl, _, rfl⟩
    simp
  exact consistent_register h hm hnests (fun _ => rfl) (fun _ => rfl) (fun _ => rfl) rfl
    fun _ => .inl rfl

theorem consistent_addMessage {m : Message} (h : api.Consistent) (hm : api.NewMessage m) :
    (api.addMessage m).Consistent := by
  have henums : (api.listMessage m).enums = api.enums := by
    unfold listMessage
    cases m.parent <;> rfl
  exact consistent_register h hm (nests_listMessage api m) (fun _ => rfl) (fun _ => rfl)
    (fun _ => rfl) henums
    ((nests_listMessage api m).listAt_append (messages_listMessage api m) fun _ => rfl)

/-! ## Enumerations -/

theorem nests_listEnum (api : Api) (e : Enumeration) :
    Nests api (api.listEnum e) e.parent fun p => { p with enums := p.enums ++ [e.id] } := by
  unfold listEnum
  cases e.parent with
  | none => exact .refl api (by rfl) (by rfl)
  | some parent => exact .modify api parent _

theorem enums_listEnum (api : Api) (e : Enumeration) :
    (api.listEnum e).enums = api.enums ∨
      e.parent = none ∧ (api.listEnum e).enums = api.enums ++ [e.id] := by
  unfold listEnum
  cases e.parent with
  | none => exact .inr ⟨rfl, rfl⟩
  | some parent => exact .inl rfl

/-- Registering an enumeration behind listing it. -/
theorem consistent_registerEnum {e : Enumeration} (h : api.Consistent)
    (he : api.registry.enums.contains e.id = false) {change : Message → Message}
    (hnests : Nests api listed e.parent change) (hid : ∀ p, (change p).id = p.id)
    (hparent : ∀ p, (change p).parent = p.parent)
    (hmessages : ∀ p, (change p).messages = p.messages) (htop : listed.messages = api.messages)
    (hlist : ∀ place, listed.enumsAt place = api.enumsAt place ∨
      place = e.parent ∧ listed.enumsAt place = api.enumsAt place ++ [e.id]) :
    (listed.addDependencyEnum e).Consistent := by
  have hkeyed := hnests.keyed hid h.keyed
  have hmessagesAt : listed.messagesAt = api.messagesAt := by
    unfold messagesAt
    rw [htop]
    exact hnests.listAt_eq _ hmessages
  refine ⟨?_, ?_, ?_, ?_⟩
  · exact ⟨hkeyed.messages, hkeyed.enums.insert e, hkeyed.services, hkeyed.methods,
      hkeyed.resources⟩
  · exact (hnests.servicesMatch h.services).of_eq rfl rfl rfl
  · show Filed listed.messagesAt listed.messageParent?
    rw [hmessagesAt, hnests.messageParent? hparent]
    exact h.messages
  · have hunparented : api.enumParent? e.id = none := by
      unfold enumParent? enum?
      rw [get?_eq_none_of_contains he]
      rfl
    refine h.enums.extend hunparented hlist fun x => ?_
    rw [← hnests.enumParent?]
    show ((listed.registry.enums.insert e.id e).get? x).map _ = _
    rw [IdMap.get?_insert]
    unfold enumParent? enum?
    split <;> rfl

theorem consistent_addDependencyEnum {e : Enumeration} (h : api.Consistent)
    (he : api.registry.enums.contains e.id = false) : (api.addDependencyEnum e).Consistent := by
  have hnests : Nests api api e.parent id := by
    refine ⟨fun x => ?_, rfl, _, rfl⟩
    simp
  exact consistent_registerEnum h he hnests (fun _ => rfl) (fun _ => rfl) (fun _ => rfl) rfl
    fun _ => .inl rfl

theorem consistent_addEnum {e : Enumeration} (h : api.Consistent)
    (he : api.registry.enums.contains e.id = false) : (api.addEnum e).Consistent := by
  have hmessages : (api.listEnum e).messages = api.messages := by
    unfold listEnum
    cases e.parent <;> rfl
  exact consistent_registerEnum h he (nests_listEnum api e) (fun _ => rfl) (fun _ => rfl)
    (fun _ => rfl) hmessages
    ((nests_listEnum api e).listAt_append (enums_listEnum api e) fun _ => rfl)

/-! ## Services and resources -/

theorem contains_insert {α : Type} (m : IdMap α) (id x : String) (a : α) :
    (m.insert id a).contains x = (x == id || m.contains x) := by
  unfold IdMap.contains
  rw [IdMap.get?_insert]
  by_cases hx : x = id <;> simp [hx]

theorem contains_insertAll (methods : IdMap Method) (new : List Method) (id : String) :
    (new.foldl (fun all m => all.insert m.id m) methods).contains id = true ↔
      id ∈ new.map (·.id) ∨ methods.contains id = true := by
  induction new generalizing methods with
  | nil => simp
  | cons m rest ih =>
    rw [List.foldl_cons, ih, contains_insert, List.map_cons, List.mem_cons, Bool.or_eq_true,
      beq_iff_eq]
    tauto

/-- The service and its methods are new to the model, and no two of the methods share an ID. -/
structure NewService (api : Api) (s : Service) (methods : List Method) : Prop where
  unregistered : api.registry.services.contains s.id = false
  newMethods : ∀ m ∈ methods, api.registry.methods.contains m.id = false
  nodup : (methods.map (·.id)).Nodup

instance (api : Api) (s : Service) (methods : List Method) : Decidable (api.NewService s methods) :=
  decidable_of_iff
    (api.registry.services.contains s.id = false ∧
      (∀ m ∈ methods, api.registry.methods.contains m.id = false) ∧ (methods.map (·.id)).Nodup)
    ⟨fun ⟨unregistered, newMethods, nodup⟩ => ⟨unregistered, newMethods, nodup⟩,
      fun h => ⟨h.unregistered, h.newMethods, h.nodup⟩⟩

/-- A service of the larger model is the new one or a former one. -/
theorem service?_addService {s : Service} {methods : List Method} {id : String} {a : Service}
    (ha : (api.addService s methods).service? id = some a) :
    id = s.id ∧ a.methods = methods.map (·.id) ∨ api.service? id = some a := by
  have hlookup : (api.addService s methods).service? id =
      if id = s.id then some { s with methods := methods.map (·.id) } else api.service? id :=
    IdMap.get?_insert _ _ _ _
  rw [hlookup] at ha
  split at ha
  · rename_i hid
    obtain rfl := Option.some.inj ha
    exact .inl ⟨hid, rfl⟩
  · exact .inr ha

/-- The services that were registered still are. -/
theorem service?_addService_of_some {s : Service} {methods : List Method} (hs : api.NewService s methods)
    {id : String} {a : Service} (ha : api.service? id = some a) :
    (api.addService s methods).service? id = some a := by
  have hne : id ≠ s.id := by
    rintro rfl
    unfold service? at ha
    rw [get?_eq_none_of_contains hs.unregistered] at ha
    cases ha
  exact (IdMap.get?_insert _ _ _ _).trans ((if_neg hne).trans ha)

/-- No service that was registered lists a new method. -/
theorem not_mem_of_newService {s : Service} {methods : List Method} (h : api.ServicesMatch)
    (hs : api.NewService s methods) {id : String} {a : Service} (ha : api.service? id = some a)
    {methodId : String} (hlisted : methodId ∈ a.methods) : methodId ∉ methods.map (·.id) := by
  intro hmem
  obtain ⟨m, hm, rfl⟩ := List.mem_map.1 hmem
  have hreg := (h.methods m.id).2 ⟨id, a, ha, hlisted⟩
  rw [hs.newMethods m hm] at hreg
  cases hreg

theorem servicesMatch_addService {s : Service} {methods : List Method} (h : api.ServicesMatch)
    (hs : api.NewService s methods) : (api.addService s methods).ServicesMatch := by
  have hnew : s.id ∉ api.services := by
    rw [h.listed, hs.unregistered]
    simp
  refine ⟨?_, fun id => ?_, fun id a ha => ?_, fun i j a b ha hb id hida hidb => ?_, fun id => ?_⟩
  · refine List.nodup_append.2 ⟨h.nodup, by simp, fun x hx y hy => ?_⟩
    rw [List.mem_singleton.1 hy]
    exact fun hxs => hnew (hxs ▸ hx)
  · show id ∈ api.services ++ [s.id] ↔ (api.registry.services.insert s.id _).contains id = true
    rw [contains_insert, List.mem_append, List.mem_singleton, h.listed, Bool.or_eq_true, beq_iff_eq]
    exact or_comm
  · rcases service?_addService ha with ⟨-, hmethods⟩ | ha
    · rw [hmethods]
      exact hs.nodup
    · exact h.methodsNodup id a ha
  · -- either service may be the new one; the new one and a former one share no method
    rcases service?_addService ha with ⟨rfl, hmethods⟩ | ha <;>
      rcases service?_addService hb with ⟨rfl, hmethods'⟩ | hb
    · rfl
    · exact absurd (hmethods ▸ hida) (not_mem_of_newService h hs hb hidb)
    · exact absurd (hmethods' ▸ hidb) (not_mem_of_newService h hs ha hida)
    · exact h.owned i j a b ha hb id hida hidb
  · show (methods.foldl _ api.registry.methods).contains id = true ↔ _
    rw [contains_insertAll]
    constructor
    · rintro (hid | hreg)
      · exact ⟨s.id, _, (IdMap.get?_insert _ _ _ _).trans (if_pos rfl), hid⟩
      · obtain ⟨k, a, ha, hid⟩ := (h.methods id).1 hreg
        exact ⟨k, a, service?_addService_of_some hs ha, hid⟩
    · rintro ⟨k, a, ha, hid⟩
      rcases service?_addService ha with ⟨-, hmethods⟩ | ha
      · exact .inl (hmethods ▸ hid)
      · exact .inr ((h.methods id).2 ⟨k, a, ha, hid⟩)

theorem consistent_addService {s : Service} {methods : List Method} (h : api.Consistent)
    (hs : api.NewService s methods) : (api.addService s methods).Consistent where
  keyed := by
    have hmethods : (methods.foldl (fun all m => all.insert m.id m)
        api.registry.methods).KeyedBy (·.id) := by
      refine List.foldlRecOn (motive := fun all : IdMap Method => all.KeyedBy (·.id)) methods _
        h.keyed.methods fun all hall m _ => ?_
      exact hall.insert m
    exact ⟨h.keyed.messages, h.keyed.enums,
      h.keyed.services.insert { s with methods := methods.map (·.id) }, hmethods, h.keyed.resources⟩
  services := servicesMatch_addService h.services hs
  messages := h.messages
  enums := h.enums

theorem consistent_addResourceDefinition (h : api.Consistent) (r : Resource) :
    (api.addResourceDefinition r).Consistent where
  keyed := ⟨h.keyed.messages, h.keyed.enums, h.keyed.services, h.keyed.methods,
    h.keyed.resources.insert r⟩
  services := h.services.of_eq rfl rfl rfl
  messages := h.messages
  enums := h.enums

end Api

end ApiModel
