import ApiModel.Proofs.Keyed
import ApiModel.Proofs.Labelled
import Mathlib.Data.List.Nodup
import Mathlib.Data.List.Pairwise
import Mathlib.Logic.Relation

/-!
# Recursive fields are those on a cycle

What the search behind the labels finds, over the graph in which a message leads to the types of its
message fields.  References may be cyclic, and they may lead to types that are not registered.

Principal results:

* `Expanded.visit` — what a visited message refers to is visited or pending, at every step of the search;
* `leadsTo_eq_true_iff` — the search finds the message if and only if it can be reached, whatever other
  branches have visited;
* `labelRecursive_spec` — **a field is labelled if and only if** its type leads back to its message.  What
  the labels were before has no influence, nothing else changes, and no cycle is left without a label.
-/

namespace ApiModel

open Relation (ReflTransGen TransGen)

/-- The message without its labels. -/
def Message.unlabelled (m : Message) : Message :=
  { m with fields := m.fields.map fun f => { f with recursive := false } }

namespace Api

/-! ## References -/

/-- The registered message has a field of the type, one of those that count. -/
def RefersBy (api : Api) (counts : Field → Bool) (id typeId : String) : Prop :=
  ∃ m, api.message? id = some m ∧ ∃ f ∈ m.fields, counts f = true ∧ f.typeId = typeId

/-- The registered message has a message field of the type. -/
def RefersTo (api : Api) : String → String → Prop := api.RefersBy Field.isMessage

/-- The type leads to the message, in any number of steps. -/
def LeadsTo (api : Api) : String → String → Prop := ReflTransGen api.RefersTo

/-- The fields of all messages have distinct IDs. -/
def FieldsDistinct (api : Api) : Prop :=
  (api.registry.messages.values.flatMap fun m => m.fields.map (·.id)).Nodup

instance (api : Api) : Decidable api.FieldsDistinct :=
  inferInstanceAs (Decidable (List.Nodup _))

variable {api other : Api} {id typeId target : String} {visited pending : List String}

theorem mem_referred_iff : typeId ∈ api.referred id ↔ api.RefersTo id typeId := by
  unfold referred RefersTo RefersBy
  cases api.message? id with
  | none => simp
  | some m =>
    simp only [List.mem_map, List.mem_filter, Option.some.injEq, exists_eq_left', and_assoc]

/-! ## The search -/

/-- The type was visited, or it is pending. -/
def Known (visited pending : List String) (typeId : String) : Prop :=
  typeId ∈ visited ∨ typeId ∈ pending

/-- A visited type need not be pending. -/
theorem Known.skip (h : Known visited (id :: pending) typeId) (hid : id ∈ visited) :
    Known visited pending typeId := by
  rcases h with hvisited | hpending
  · exact .inl hvisited
  · rcases List.mem_cons.1 hpending with rfl | hpending
    · exact .inl hid
    · exact .inr hpending

theorem Known.visit (h : Known visited (id :: pending) typeId) (more : List String) :
    Known (id :: visited) (more ++ pending) typeId := by
  rcases h with hvisited | hpending
  · exact .inl (List.mem_cons_of_mem _ hvisited)
  · rcases List.mem_cons.1 hpending with rfl | hpending
    · exact .inl (List.mem_cons_self ..)
    · exact .inr (List.mem_append_right _ hpending)

/-- What a visited message refers to is visited or pending. -/
def Expanded (api : Api) (visited pending : List String) : Prop :=
  ∀ id ∈ visited, ∀ typeId, api.RefersTo id typeId → Known visited pending typeId

theorem Expanded.nil (api : Api) (pending : List String) : api.Expanded [] pending :=
  fun _ hid => absurd hid List.not_mem_nil

theorem Expanded.skip (h : api.Expanded visited (id :: pending)) (hid : id ∈ visited) :
    api.Expanded visited pending :=
  fun source hsource typeId hrefers => (h source hsource typeId hrefers).skip hid

/-- A message is visited by making pending what it refers to. -/
theorem Expanded.visit (h : api.Expanded visited (id :: pending)) :
    api.Expanded (id :: visited) (api.referred id ++ pending) := by
  intro source hsource typeId hrefers
  rcases List.mem_cons.1 hsource with rfl | hsource
  · exact .inr (List.mem_append_left _ (mem_referred_iff.2 hrefers))
  · exact (h source hsource typeId hrefers).visit (api.referred id)

/-- With nothing pending, what is visited leads to what is visited. -/
theorem Expanded.mem_of_leadsTo (h : api.Expanded visited []) (hid : id ∈ visited)
    (hleads : api.LeadsTo id target) : target ∈ visited := by
  induction hleads with
  | refl => exact hid
  | tail _ hrefers ih =>
    rcases h _ ih _ hrefers with hvisited | hpending
    · exact hvisited
    · cases hpending

/-- The search finds nothing that cannot be reached. -/
theorem exists_leadsTo_of_search (h : api.search target visited pending = true) :
    ∃ start ∈ pending, api.LeadsTo start target := by
  fun_induction api.search target visited pending with
  | case1 visited => cases h
  | case2 visited id pending hfound =>
    obtain rfl := eq_of_beq hfound
    exact ⟨id, List.mem_cons_self .., .refl⟩
  | case3 visited id pending hother hold ih =>
    obtain ⟨start, hstart, hleads⟩ := ih h
    exact ⟨start, List.mem_cons_of_mem _ hstart, hleads⟩
  | case4 visited id pending hother hnew ih =>
    obtain ⟨start, hstart, hleads⟩ := ih h
    rcases List.mem_append.1 hstart with hreferred | hpending
    · exact ⟨id, List.mem_cons_self .., .head (mem_referred_iff.1 hreferred) hleads⟩
    · exact ⟨start, List.mem_cons_of_mem _ hpending, hleads⟩

/-- **The search misses nothing.**  A path that a visited message cuts off goes on from what that message made
pending. -/
theorem search_of_leadsTo {start : String} (h : api.Expanded visited pending) (hnew : target ∉ visited)
    (hstart : Known visited pending start) (hleads : api.LeadsTo start target) :
    api.search target visited pending = true := by
  fun_induction api.search target visited pending with
  | case1 visited =>
    rcases hstart with hvisited | hpending
    · exact absurd (h.mem_of_leadsTo hvisited hleads) hnew
    · cases hpending
  | case2 visited id pending hfound => rfl
  | case3 visited id pending hother hold ih =>
    have hid := List.contains_iff_mem.1 hold
    exact ih (h.skip hid) hnew (hstart.skip hid)
  | case4 visited id pending hother _ ih =>
    have hne : target ≠ id := fun heq => hother (beq_iff_eq.2 heq.symm)
    exact ih h.visit (List.not_mem_cons_of_ne_of_not_mem hne hnew) (hstart.visit _)

/-- **A type contains a message if and only if** it leads there. -/
theorem leadsTo_eq_true_iff : api.leadsTo typeId target = true ↔ api.LeadsTo typeId target := by
  constructor
  · intro h
    obtain ⟨start, hstart, hleads⟩ := exists_leadsTo_of_search h
    obtain rfl := List.mem_singleton.1 hstart
    exact hleads
  · intro h
    exact search_of_leadsTo (.nil api [typeId]) List.not_mem_nil (.inr (List.mem_singleton_self _)) h

/-! ## Labels -/

theorem mem_recursiveFieldIds_iff {fieldId : String} :
    fieldId ∈ api.recursiveFieldIds ↔ ∃ id m, api.message? id = some m ∧ ∃ f ∈ m.fields,
      f.isMessage = true ∧ api.LeadsTo f.typeId m.id ∧ f.id = fieldId := by
  unfold recursiveFieldIds
  simp only [List.mem_flatMap, IdMap.mem_values_iff, List.mem_map, List.mem_filter, Bool.and_eq_true,
    leadsTo_eq_true_iff, and_assoc]
  constructor
  · rintro ⟨m, ⟨id, hm⟩, hfield⟩
    exact ⟨id, m, hm, hfield⟩
  · rintro ⟨id, m, hm, hfield⟩
    exact ⟨m, ⟨id, hm⟩, hfield⟩

/-- With distinct IDs, the ID of a field tells the field and its message. -/
theorem FieldsDistinct.eq (h : api.FieldsDistinct) {other : String} {m n : Message} {f g : Field}
    (hm : api.message? id = some m) (hn : api.message? other = some n) (hf : f ∈ m.fields)
    (hg : g ∈ n.fields) (hfg : f.id = g.id) : m = n ∧ f = g := by
  obtain ⟨hwithin, hacross⟩ := List.nodup_flatMap.1 h
  have hmv : m ∈ api.registry.messages.values := IdMap.mem_values_iff.2 ⟨id, hm⟩
  have hnv : n ∈ api.registry.messages.values := IdMap.mem_values_iff.2 ⟨other, hn⟩
  have hsymm : Std.Symm (Function.onFun List.Disjoint fun m : Message => m.fields.map (·.id)) :=
    ⟨fun _ _ h => List.disjoint_symm h⟩
  have hmn : m = n := by
    by_contra hne
    have hdisjoint := hacross.forall hmv hnv hne
    exact hdisjoint (List.mem_map_of_mem hf) (hfg ▸ List.mem_map_of_mem hg)
  subst hmn
  exact ⟨rfl, List.inj_on_of_nodup_map (hwithin m hmv) hf hg hfg⟩

theorem message?_labelRecursive {m : Message} :
    api.labelRecursive.message? id = some m ↔ ∃ n, api.message? id = some n ∧ m = { n with
      fields := n.fields.map fun f => { f with recursive := api.recursiveFieldIds.contains f.id } } := by
  unfold labelRecursive message?
  rw [IdMap.get?_map, Option.map_eq_some_iff]
  simp only [eq_comm]

/-- **A field is labelled if and only if** it is a message field whose type leads to its message. -/
theorem recursive_iff (hdistinct : api.FieldsDistinct) {m : Message} {f : Field}
    (hm : api.labelRecursive.message? id = some m) (hf : f ∈ m.fields) :
    f.recursive = true ↔ f.isMessage = true ∧ api.LeadsTo f.typeId m.id := by
  obtain ⟨n, hn, rfl⟩ := message?_labelRecursive.1 hm
  obtain ⟨g, hg, rfl⟩ := List.mem_map.1 hf
  rw [List.contains_iff_mem, mem_recursiveFieldIds_iff]
  constructor
  · rintro ⟨owner, m, hm, f, hf, hmessage, hleads, hid⟩
    obtain ⟨rfl, rfl⟩ := hdistinct.eq hm hn hf hg hid
    exact ⟨hmessage, hleads⟩
  · rintro ⟨hmessage, hleads⟩
    exact ⟨id, n, hn, g, hg, hmessage, hleads, rfl⟩

/-! ## What labels are not about -/

/-- The model without its labels. -/
def unlabelled (api : Api) : Api :=
  { api with registry.messages := api.registry.messages.map fun _ => Message.unlabelled }

/-- **Labelling changes nothing but the labels.** -/
theorem unlabelled_labelRecursive (api : Api) : api.labelRecursive.unlabelled = api.unlabelled := by
  unfold unlabelled labelRecursive
  simp only [IdMap.map_map, Message.unlabelled, List.map_map]
  rfl

theorem contents_unlabelled (api : Api) : api.unlabelled.contents = api.contents := by
  unfold contents unlabelled
  simp only [IdMap.map_map, Message.unlabelled, List.map_map, Function.comp_def]
  rfl

/-- **What the labels were before has no influence.** -/
theorem labelRecursive_congr (h : other.unlabelled = api.unlabelled) :
    other.labelRecursive = api.labelRecursive := by
  have hunlabelled : ∀ api : Api, api.unlabelled.labelRecursive = api.labelRecursive := by
    intro api
    have hids := recursiveFieldIds_of_contents (contents_unlabelled api)
    unfold labelRecursive
    rw [hids]
    unfold unlabelled
    simp only [IdMap.map_map, Message.unlabelled, List.map_map, Function.comp_def]
  rw [← hunlabelled other, h, hunlabelled]

/-! ## Cycles -/

/-- The message fields without a label. -/
def flat (f : Field) : Bool := f.isMessage && !f.recursive

theorem refersTo_of_flat (h : api.labelRecursive.RefersBy flat id typeId) : api.RefersTo id typeId := by
  obtain ⟨m, hm, f, hf, hflat, htype⟩ := h
  obtain ⟨n, hn, rfl⟩ := message?_labelRecursive.1 hm
  obtain ⟨g, hg, rfl⟩ := List.mem_map.1 hf
  exact ⟨n, hn, g, hg, (Bool.and_eq_true_iff.1 hflat).1, htype⟩

/-- **The message fields without a label lead from no message to itself.** -/
theorem not_transGen_flat (hkeyed : api.registry.messages.KeyedBy (·.id))
    (hdistinct : api.FieldsDistinct) (id : String) :
    ¬ TransGen (api.labelRecursive.RefersBy flat) id id := by
  intro h
  obtain ⟨typeId, ⟨m, hm, f, hf, hflat, rfl⟩, hback⟩ := TransGen.head'_iff.1 h
  have hle : api.labelRecursive.RefersBy flat ≤ api.RefersTo := fun _ _ => refersTo_of_flat
  have hleads : api.LeadsTo f.typeId id := ReflTransGen.mono hle _ _ hback
  obtain ⟨n, hn, rfl⟩ := message?_labelRecursive.1 hm
  have hid : n.id = id := hkeyed id n hn
  simp only [flat, Bool.and_eq_true, Bool.not_eq_true'] at hflat
  have hrecursive := (recursive_iff hdistinct hm hf).2 ⟨hflat.1, hid ▸ hleads⟩
  rw [hflat.2] at hrecursive
  cases hrecursive

/-- **A field is labelled if and only if** it is a message field whose type leads back to its message.  What
the labels were before has no influence, nothing but the labels changes, and the message fields without a
label form no cycle. -/
theorem labelRecursive_spec (api : Api) (hkeyed : api.registry.messages.KeyedBy (·.id))
    (hdistinct : api.FieldsDistinct) :
    (∀ id m, api.labelRecursive.message? id = some m → ∀ f ∈ m.fields,
        (f.recursive = true ↔ f.isMessage = true ∧ api.LeadsTo f.typeId m.id)) ∧
      (∀ other : Api, other.unlabelled = api.unlabelled → other.labelRecursive = api.labelRecursive) ∧
      api.labelRecursive.unlabelled = api.unlabelled ∧
      ∀ id, ¬ TransGen (api.labelRecursive.RefersBy flat) id id := by
  refine ⟨?_, fun _ => labelRecursive_congr, unlabelled_labelRecursive api,
    not_transGen_flat hkeyed hdistinct⟩
  intro id m hm f hf
  exact recursive_iff hdistinct hm hf

/-- A message field, labelled or not. -/
def messageField (name typeId : String) (recursive : Bool) : Field :=
  { name, jsonName := name, kind := .message, typeId, recursive }

/-- Two messages that refer to each other and one outside of them.  One of the references leads nowhere, and all
labels are wrong. -/
def ring : Api :=
  ((({ name := "ring" } : Api).addMessage
      ((Message.new "Left" "v1" none).addField (messageField "right" ".v1.Right" false))).addMessage
      (((Message.new "Right" "v1" none).addField (messageField "left" ".v1.Left" false)).addField
        (messageField "gone" ".v1.Gone" true))).addMessage
      ((Message.new "Outer" "v1" none).addField (messageField "left" ".v1.Left" true))

theorem labelRecursive_spec_ring :
    ring.registry.messages.KeyedBy (·.id) ∧ ring.FieldsDistinct ∧
      (∀ m, ring.labelRecursive.message? ".v1.Left" = some m → ∀ f ∈ m.fields, f.recursive = true) ∧
      (∀ m, ring.labelRecursive.message? ".v1.Outer" = some m → ∀ f ∈ m.fields, f.recursive = false) ∧
      ∀ id, ¬ TransGen (ring.labelRecursive.RefersBy flat) id id := by
  have hkeyed : ring.registry.messages.KeyedBy (·.id) := by decide
  have hdistinct : ring.FieldsDistinct := by decide
  obtain ⟨hlabels, -, -, hcycle⟩ := ring.labelRecursive_spec hkeyed hdistinct
  refine ⟨hkeyed, hdistinct, fun m hm f hf => ?_, fun m hm f hf => ?_, hcycle⟩
  · have hback : ring.LeadsTo ".v1.Right" ".v1.Left" :=
      .single ⟨_, rfl, _, List.mem_cons_self .., rfl, rfl⟩
    refine (hlabels _ m hm f hf).2 ?_
    obtain ⟨n, hn, rfl⟩ := message?_labelRecursive.1 hm
    obtain rfl := Option.some.inj hn
    obtain rfl := List.mem_singleton.1 hf
    exact ⟨rfl, hback⟩
  · have hnone : ∀ m ∈ ring.registry.messages.values, ∀ f ∈ m.fields, f.typeId ≠ ".v1.Outer" := by decide
    have hout : ∀ id, ¬ ring.RefersTo id ".v1.Outer" := by
      rintro id ⟨m, hm, f, hf, -, htype⟩
      exact hnone m (IdMap.mem_values_iff.2 ⟨id, hm⟩) f hf htype
    refine Bool.eq_false_iff.2 fun hrecursive => ?_
    obtain ⟨-, hleads⟩ := (hlabels _ m hm f hf).1 hrecursive
    obtain ⟨n, hn, rfl⟩ := message?_labelRecursive.1 hm
    obtain rfl := Option.some.inj hn
    obtain rfl := List.mem_singleton.1 hf
    rcases hleads.cases_tail with htarget | ⟨source, -, hrefers⟩
    · revert htarget
      decide
    · exact hout source hrefers

end Api

end ApiModel
