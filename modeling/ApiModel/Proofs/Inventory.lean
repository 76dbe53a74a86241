import ApiModel.Model.Api
import ApiModel.Proofs.Outcome
import Mathlib.Data.List.Perm.Basic

/-!
# What a model holds

`IdMap.Holds` says that the elements of a map are those of a list, each under its own ID; `Api.Holds`
says it of the registry of a model.  The builders are followed element by element: as long as no ID
comes twice, what is added is added to the list.

Principal results:

* `Holds.addMessages`, `Holds.addEnums` — messages whose parents come first are held with their
  children and enumerations listed in order;
* `Holds.addServices` — services are held with their methods, and the methods beside them;
* `Holds.addDependencyMessages`, `Holds.addDependencyEnums` — what is only registered is listed
  nowhere.
-/

namespace ApiModel

theorem not_mem_of_nodup_append_cons {α : Type} {as bs : List α} {a : α}
    (h : (as ++ a :: bs).Nodup) : a ∉ as := by
  intro hmem
  exact (List.nodup_append.1 h).2.2 a hmem a (by simp) rfl

/-! ## Maps -/

namespace IdMap

variable {α β : Type} {m : IdMap α} {key : α → String} {as bs : List α}

/-- The elements of the map are those of the list, each under its own ID. -/
def Holds (m : IdMap α) (key : α → String) (as : List α) : Prop :=
  ∀ id a, m.get? id = some a ↔ a ∈ as ∧ key a = id

theorem holds_empty (key : α → String) : (∅ : IdMap α).Holds key [] := by
  intro id a
  simp

theorem Holds.contains_iff (h : m.Holds key as) {id : String} :
    m.contains id = true ↔ id ∈ as.map key := by
  unfold contains
  rw [Option.isSome_iff_exists, List.mem_map]
  exact exists_congr fun a => h id a

theorem nodup_keys (m : IdMap α) : m.keys.Nodup := by
  refine List.Pairwise.imp ?_ m.ascending
  rintro a _ hlt rfl
  exact String.lt_irrefl a hlt

/-- The IDs of the map are those of the elements, each once. -/
theorem Holds.keys_perm (h : m.Holds key as) (hnodup : (as.map key).Nodup) :
    m.keys.Perm (as.map key) := by
  refine (List.perm_ext_iff_of_nodup m.nodup_keys hnodup).2 fun id => ?_
  rw [mem_keys_iff, h.contains_iff]

theorem Holds.insert (h : m.Holds key as) {a : α} (hnew : key a ∉ as.map key) :
    (m.insert (key a) a).Holds key (as ++ [a]) := by
  intro id b
  rw [get?_insert, List.mem_append, List.mem_singleton]
  split
  · rename_i hid
    subst hid
    constructor
    · intro hb
      obtain rfl := Option.some.inj hb
      exact ⟨.inr rfl, rfl⟩
    · rintro ⟨hb | rfl, hkey⟩
      · exact absurd (List.mem_map.2 ⟨b, hb, hkey⟩) hnew
      · rfl
  · rename_i hid
    rw [h id b]
    constructor
    · rintro ⟨hb, hkey⟩
      exact ⟨.inl hb, hkey⟩
    · rintro ⟨hb | rfl, hkey⟩
      · exact ⟨hb, hkey⟩
      · exact absurd hkey.symm hid

/-- Elements with new IDs are held beside the others. -/
theorem Holds.foldl_insert (h : m.Holds key as) (hnodup : (as.map key ++ bs.map key).Nodup) :
    (bs.foldl (fun m b => m.insert (key b) b) m).Holds key (as ++ bs) := by
  induction bs generalizing m as with
  | nil => simpa using h
  | cons b rest ih =>
    have hnew : key b ∉ as.map key := not_mem_of_nodup_append_cons hnodup
    have hrest := ih (h.insert hnew) (by simpa using hnodup)
    simpa using hrest

/-- Changing one element changes it in the list. -/
theorem Holds.modify (h : m.Holds key as) {id : String} {f : α → α} (hf : ∀ a, key (f a) = key a) :
    (m.modify id f).Holds key (as.map fun a => if key a = id then f a else a) := by
  intro x b
  rw [get?_modify, List.mem_map]
  constructor
  · intro hb
    split at hb
    · rename_i hx
      obtain ⟨a, ha, rfl⟩ := Option.map_eq_some_iff.1 hb
      obtain ⟨ha, hkey⟩ := (h x a).1 ha
      exact ⟨⟨a, ha, if_pos (hkey.trans hx)⟩, (hf a).trans hkey⟩
    · rename_i hx
      obtain ⟨hb, hkey⟩ := (h x b).1 hb
      exact ⟨⟨b, hb, if_neg (hkey ▸ hx)⟩, hkey⟩
  · rintro ⟨⟨a, ha, rfl⟩, hkey⟩
    split at hkey
    · rename_i hid
      rw [hf] at hkey
      rw [if_pos (hkey.symm.trans hid), if_pos hid, (h x a).2 ⟨ha, hkey⟩]
      rfl
    · rename_i hid
      rw [if_neg (fun hx => hid (hkey.trans hx)), if_neg hid]
      exact (h x a).2 ⟨ha, hkey⟩

end IdMap

/-! ## Models -/

/-- The elements of a model. -/
structure Inventory where
  messages : List Message := []
  enums : List Enumeration := []
  services : List Service := []
  methods : List Method := []

namespace Inventory

/-- The elements of both. -/
def append (a b : Inventory) : Inventory :=
  { messages := a.messages ++ b.messages
    enums := a.enums ++ b.enums
    services := a.services ++ b.services
    methods := a.methods ++ b.methods }

/-- No two elements of one kind have the same ID. -/
structure Distinct (inv : Inventory) : Prop where
  messages : (inv.messages.map (·.id)).Nodup
  enums : (inv.enums.map (·.id)).Nodup
  services : (inv.services.map (·.id)).Nodup
  methods : (inv.methods.map (·.id)).Nodup

variable {a b : Inventory}

theorem append_nil (a : Inventory) : a.append {} = a := by
  simp [append]

theorem append_assoc (a b c : Inventory) : (a.append b).append c = a.append (b.append c) := by
  simp [append, List.append_assoc]

theorem Distinct.of_append_left (h : (a.append b).Distinct) : a.Distinct := by
  refine ⟨?_, ?_, ?_, ?_⟩
  · exact h.messages.sublist ((List.sublist_append_left _ _).map _)
  · exact h.enums.sublist ((List.sublist_append_left _ _).map _)
  · exact h.services.sublist ((List.sublist_append_left _ _).map _)
  · exact h.methods.sublist ((List.sublist_append_left _ _).map _)

end Inventory

namespace Message

/-- The message with those of other messages listed that are nested in it. -/
def withChildren (all : List Message) (m : Message) : Message :=
  { m with messages := m.messages ++ (all.filter (·.parent == some m.id)).map (·.id) }

/-- The message with those of some enumerations listed that are nested in it. -/
def withEnums (all : List Enumeration) (m : Message) : Message :=
  { m with enums := m.enums ++ (all.filter (·.parent == some m.id)).map (·.id) }

end Message

/-- The IDs that a model lists, and its package. -/
structure Listing where
  package : String := ""
  messages : List String := []
  enums : List String := []
  services : List String := []

/-- The service with methods listed. -/
def Service.listing (s : Service) (methods : List Method) : Service :=
  { s with methods := methods.map (·.id) }

/-- No message comes ahead of its parent. -/
def ParentsFirst (messages : List Message) : Prop :=
  messages.Pairwise (fun a b => a.parent ≠ some b.id) ∧ ∀ m ∈ messages, m.parent ≠ some m.id

namespace Api

variable {api : Api} {inv : Inventory}

/-- The registry has the elements of an inventory, each under its own ID. -/
structure Holds (api : Api) (inv : Inventory) : Prop where
  messages : api.registry.messages.Holds (·.id) inv.messages
  enums : api.registry.enums.Holds (·.id) inv.enums
  services : api.registry.services.Holds (·.id) inv.services
  methods : api.registry.methods.Holds (·.id) inv.methods

/-- Resources are apart from the elements. -/
theorem Holds.withResources (h : api.Holds inv) (resources : List Resource) :
    (resources.foldl withResource api).Holds inv := by
  induction resources generalizing api with
  | nil => exact h
  | cons r rest ih => exact ih ⟨h.messages, h.enums, h.services, h.methods⟩

theorem Holds.addResourceDefinitions (h : api.Holds inv) (resources : List Resource) :
    (resources.foldl addResourceDefinition api).Holds inv := by
  induction resources generalizing api with
  | nil => exact h
  | cons r rest ih => exact ih ⟨h.messages, h.enums, h.services, h.methods⟩

/-! ## Elements that are only registered -/

theorem addDependencyMessage_registry (api : Api) (m : Message) :
    (api.addDependencyMessage m).registry.messages = api.registry.messages.insert m.id m ∧
      (api.addDependencyMessage m).registry.enums = api.registry.enums ∧
      (api.addDependencyMessage m).registry.services = api.registry.services ∧
      (api.addDependencyMessage m).registry.methods = api.registry.methods := by
  unfold addDependencyMessage
  cases m.resource with
  | none => exact ⟨rfl, rfl, rfl, rfl⟩
  | some r => exact ⟨rfl, rfl, rfl, rfl⟩

theorem Holds.addDependencyMessage (h : api.Holds inv) {m : Message}
    (hnew : m.id ∉ inv.messages.map (·.id)) :
    (api.addDependencyMessage m).Holds { inv with messages := inv.messages ++ [m] } := by
  obtain ⟨hmessages, henums, hservices, hmethods⟩ := addDependencyMessage_registry api m
  refine ⟨?_, ?_, ?_, ?_⟩
  · rw [hmessages]
    exact h.messages.insert hnew
  · rw [henums]
    exact h.enums
  · rw [hservices]
    exact h.services
  · rw [hmethods]
    exact h.methods

theorem Holds.addDependencyMessages {new : List Message} (h : api.Holds inv)
    (hnodup : (inv.messages.map (·.id) ++ new.map (·.id)).Nodup) :
    (new.foldl Api.addDependencyMessage api).Holds
      { inv with messages := inv.messages ++ new } := by
  induction new generalizing api inv with
  | nil => simpa using h
  | cons m rest ih =>
    have hnew : m.id ∉ inv.messages.map (·.id) := not_mem_of_nodup_append_cons hnodup
    have hrest := ih (h.addDependencyMessage hnew) (by simpa using hnodup)
    simpa using hrest

theorem Holds.addDependencyEnums {new : List Enumeration} (h : api.Holds inv)
    (hnodup : (inv.enums.map (·.id) ++ new.map (·.id)).Nodup) :
    (new.foldl Api.addDependencyEnum api).Holds { inv with enums := inv.enums ++ new } := by
  have hregistry : ∀ (es : List Enumeration) (a : Api),
      (es.foldl Api.addDependencyEnum a).registry =
        { a.registry with
          enums := es.foldl (fun m e => m.insert e.id e) a.registry.enums } := by
    intro es
    induction es with
    | nil => intro a; rfl
    | cons e rest ih => intro a; rw [List.foldl_cons, ih]; rfl
  refine ⟨?_, ?_, ?_, ?_⟩ <;> rw [hregistry]
  · exact h.messages
  · exact h.enums.foldl_insert hnodup
  · exact h.services
  · exact h.methods

/-! ## Elements that are listed -/

theorem withChildren_withChildren (first second : List Message) (m : Message) :
    (m.withChildren first).withChildren second = m.withChildren (first ++ second) := by
  simp [Message.withChildren]

theorem withEnums_withEnums (first second : List Enumeration) (m : Message) :
    (m.withEnums first).withEnums second = m.withEnums (first ++ second) := by
  simp [Message.withEnums]

theorem withChildren_cons_of_ne {child m : Message} (h : child.parent ≠ some m.id)
    (rest : List Message) : m.withChildren (child :: rest) = m.withChildren rest := by
  simp [Message.withChildren, h]

theorem withChildren_of_forall_ne {all : List Message} {m : Message}
    (h : ∀ child ∈ all, child.parent ≠ some m.id) : m.withChildren all = m := by
  have hnone : all.filter (·.parent == some m.id) = [] := by
    rw [List.filter_eq_nil_iff]
    intro child hchild
    simpa using h child hchild
  simp [Message.withChildren, hnone]

theorem map_withChildren_of_forall_ne {all messages : List Message}
    (h : ∀ m ∈ messages, ∀ child ∈ all, child.parent ≠ some m.id) :
    messages.map (Message.withChildren all) = messages :=
  (List.map_congr_left fun m hm => withChildren_of_forall_ne (h m hm)).trans (List.map_id _)

theorem map_withEnums_of_forall_ne {all : List Enumeration} {messages : List Message}
    (h : ∀ m ∈ messages, ∀ e ∈ all, e.parent ≠ some m.id) :
    messages.map (Message.withEnums all) = messages := by
  refine (List.map_congr_left fun m hm => ?_).trans (List.map_id _)
  have hnone : all.filter (·.parent == some m.id) = [] := by
    rw [List.filter_eq_nil_iff]
    intro e he
    simpa using h m hm e he
  simp [Message.withEnums, hnone]

theorem Holds.listMessage (h : api.Holds inv) (m : Message) :
    (api.listMessage m).Holds
      { inv with messages := inv.messages.map (Message.withChildren [m]) } := by
  unfold Api.listMessage
  cases hparent : m.parent with
  | none =>
    rw [map_withChildren_of_forall_ne (by simp [hparent])]
    exact ⟨h.messages, h.enums, h.services, h.methods⟩
  | some parent =>
    have hsame : inv.messages.map (Message.withChildren [m]) = inv.messages.map fun a =>
        if a.id = parent then { a with messages := a.messages ++ [m.id] } else a := by
      refine List.map_congr_left fun a _ => ?_
      split
      · rename_i hid
        simp [Message.withChildren, hparent, hid]
      · rename_i hid
        exact withChildren_of_forall_ne (by simpa [hparent] using Ne.symm hid)
    rw [hsame]
    exact ⟨h.messages.modify fun _ => rfl, h.enums, h.services, h.methods⟩

theorem Holds.listEnum (h : api.Holds inv) (e : Enumeration) :
    (api.listEnum e).Holds
      { inv with messages := inv.messages.map (Message.withEnums [e]) } := by
  unfold Api.listEnum
  cases hparent : e.parent with
  | none =>
    rw [map_withEnums_of_forall_ne (by simp [hparent])]
    exact ⟨h.messages, h.enums, h.services, h.methods⟩
  | some parent =>
    have hsame : inv.messages.map (Message.withEnums [e]) = inv.messages.map fun a =>
        if a.id = parent then { a with enums := a.enums ++ [e.id] } else a := by
      refine List.map_congr_left fun a _ => ?_
      split
      · rename_i hid
        simp [Message.withEnums, hparent, hid]
      · rename_i hid
        simp [Message.withEnums, hparent, Ne.symm hid]
    rw [hsame]
    exact ⟨h.messages.modify fun _ => rfl, h.enums, h.services, h.methods⟩

/-- Messages are held with their children listed in order, as are those that were there. -/
theorem Holds.addMessages {new : List Message} (h : api.Holds inv) (hfirst : ParentsFirst new)
    (hnodup : (inv.messages.map (·.id) ++ new.map (·.id)).Nodup) :
    (new.foldl Api.addMessage api).Holds
      { inv with messages := (inv.messages ++ new).map (Message.withChildren new) } := by
  induction new generalizing api inv with
  | nil =>
    rw [List.append_nil, map_withChildren_of_forall_ne (by simp)]
    exact h
  | cons m rest ih =>
    obtain ⟨hpairs, hself⟩ := hfirst
    obtain ⟨hm, hpairs⟩ := List.pairwise_cons.1 hpairs
    have hids : (inv.messages.map (Message.withChildren [m])).map (·.id) =
        inv.messages.map (·.id) := by
      simp [Message.withChildren, Function.comp_def]
    have hnew : m.id ∉ (inv.messages.map (Message.withChildren [m])).map (·.id) := by
      rw [hids]
      exact not_mem_of_nodup_append_cons hnodup
    have hrest := ih ((h.listMessage m).addDependencyMessage hnew)
      ⟨hpairs, fun x hx => hself x (by simp [hx])⟩ (by simpa [hids] using hnodup)
    -- the first message is nobody's child among those behind it, so only those before gain one
    have hbefore : (inv.messages.map (Message.withChildren [m])).map (Message.withChildren rest) =
        inv.messages.map (Message.withChildren (m :: rest)) := by
      rw [List.map_map]
      exact List.map_congr_left fun a _ => withChildren_withChildren [m] rest a
    have hown : m.withChildren rest = m.withChildren (m :: rest) :=
      (withChildren_cons_of_ne (hself m (by simp)) rest).symm
    have hbehind : rest.map (Message.withChildren rest) =
        rest.map (Message.withChildren (m :: rest)) :=
      List.map_congr_left fun a ha => (withChildren_cons_of_ne (hm a ha) rest).symm
    simp only [List.map_append, hbefore, hown, hbehind, List.map_cons, List.append_assoc,
      List.singleton_append] at hrest ⊢
    exact hrest

theorem Holds.addEnums {new : List Enumeration} (h : api.Holds inv)
    (hnodup : (inv.enums.map (·.id) ++ new.map (·.id)).Nodup) :
    (new.foldl Api.addEnum api).Holds
      { inv with
        messages := inv.messages.map (Message.withEnums new)
        enums := inv.enums ++ new } := by
  induction new generalizing api inv with
  | nil =>
    rw [List.append_nil, map_withEnums_of_forall_ne (by simp)]
    exact h
  | cons e rest ih =>
    have hlisted := h.listEnum e
    have hnew : e.id ∉ inv.enums.map (·.id) := not_mem_of_nodup_append_cons hnodup
    have hadded : (api.addEnum e).Holds
        { inv with
          messages := inv.messages.map (Message.withEnums [e])
          enums := inv.enums ++ [e] } :=
      ⟨hlisted.messages, hlisted.enums.insert hnew, hlisted.services, hlisted.methods⟩
    have hrest := ih hadded (by simpa using hnodup)
    simpa [Function.comp_def, withEnums_withEnums] using hrest

/-! ## Services -/

theorem Holds.addService (h : api.Holds inv) {s : Service} {methods : List Method}
    (hnew : s.id ∉ inv.services.map (·.id))
    (hnodup : (inv.methods.map (·.id) ++ methods.map (·.id)).Nodup) :
    (api.addService s methods).Holds
      { inv with
        services := inv.services ++ [s.listing methods]
        methods := inv.methods ++ methods } := by
  have hservice : (s.listing methods).id ∉ inv.services.map (·.id) := hnew
  exact ⟨h.messages, h.enums, h.services.insert hservice, h.methods.foldl_insert hnodup⟩

/-- Services are held with their methods listed, and the methods beside them. -/
theorem Holds.addServices {new : List (Service × List Method)} (h : api.Holds inv)
    (hservices : (inv.services.map (·.id) ++ new.map (·.1.id)).Nodup)
    (hmethods : (inv.methods.map (·.id) ++ new.flatMap fun x => x.2.map (·.id)).Nodup) :
    (new.foldl (fun api x => api.addService x.1 x.2) api).Holds
      { inv with
        services := inv.services ++ new.map fun x => x.1.listing x.2
        methods := inv.methods ++ new.flatMap (·.2) } := by
  induction new generalizing api inv with
  | nil => simpa using h
  | cons x rest ih =>
    have hnew : x.1.id ∉ inv.services.map (·.id) := not_mem_of_nodup_append_cons hservices
    rw [List.flatMap_cons, ← List.append_assoc] at hmethods
    have hadded := h.addService hnew (List.nodup_append.1 hmethods).1
    have hrest := ih hadded (by simpa [Service.listing] using hservices) (by simpa using hmethods)
    simpa using hrest

/-! ## What the builders list -/

/-- The listed elements are apart from the registered ones. -/
def listing (api : Api) : Listing :=
  { package := api.package, messages := api.messages, enums := api.enums, services := api.services }

theorem listing_withResources (resources : List Resource) (api : Api) :
    (resources.foldl withResource api).listing = api.listing := by
  refine Outcome.foldl_frame listing ?_ api resources
  intro _ _
  rfl

theorem listing_addResourceDefinitions (resources : List Resource) (api : Api) :
    (resources.foldl addResourceDefinition api).listing = api.listing := by
  refine Outcome.foldl_frame listing ?_ api resources
  intro _ _
  rfl

theorem listing_addDependencyMessage (api : Api) (m : Message) :
    (api.addDependencyMessage m).listing = api.listing := by
  unfold addDependencyMessage
  cases m.resource <;> rfl

theorem listing_addDependencyMessages (new : List Message) (api : Api) :
    (new.foldl addDependencyMessage api).listing = api.listing :=
  Outcome.foldl_frame listing listing_addDependencyMessage api new

theorem listing_addDependencyEnums (new : List Enumeration) (api : Api) :
    (new.foldl addDependencyEnum api).listing = api.listing := by
  refine Outcome.foldl_frame listing ?_ api new
  intro _ _
  rfl

theorem listing_addMessages (new : List Message) (api : Api) :
    (new.foldl addMessage api).listing =
      { api.listing with
        messages := api.listing.messages ++ (new.filter (·.parent.isNone)).map (·.id) } := by
  induction new generalizing api with
  | nil => simp
  | cons m rest ih =>
    have hlist : (api.addMessage m).listing =
        { api.listing with
          messages := api.listing.messages ++ if m.parent.isNone then [m.id] else [] } := by
      unfold addMessage listMessage
      rw [listing_addDependencyMessage]
      cases m.parent <;> simp [listing]
    rw [List.foldl_cons, ih, hlist]
    cases hparent : m.parent <;> simp [hparent]

theorem listing_addEnums (new : List Enumeration) (api : Api) :
    (new.foldl addEnum api).listing =
      { api.listing with
        enums := api.listing.enums ++ (new.filter (·.parent.isNone)).map (·.id) } := by
  induction new generalizing api with
  | nil => simp
  | cons e rest ih =>
    have hlist : (api.addEnum e).listing =
        { api.listing with
          enums := api.listing.enums ++ if e.parent.isNone then [e.id] else [] } := by
      unfold addEnum listEnum addDependencyEnum
      cases e.parent <;> simp [listing]
    rw [List.foldl_cons, ih, hlist]
    cases hparent : e.parent <;> simp [hparent]

theorem listing_addServices (new : List (Service × List Method)) (api : Api) :
    (new.foldl (fun api x => api.addService x.1 x.2) api).listing =
      { api.listing with services := api.listing.services ++ new.map (·.1.id) } := by
  induction new generalizing api with
  | nil => simp
  | cons x rest ih =>
    rw [List.foldl_cons, ih]
    simp [listing, addService]

end Api

end ApiModel
