import ApiModel.Override
import ApiModel.Proofs.Edit
import ApiModel.Proofs.Keyed
import Mathlib.Data.List.Nodup

/-!
# Elements with documentation

Messages, enumerations, services, methods, fields and values have documentation.  `elements` lists all of them
by their places, `idOf?` gives their IDs, and `undocumented` is a registry without their documentation.

Principal results:

* `documentation?_document` — documenting one element does so and leaves the others as they are;
* `undocumented_document`, `element?_undocumented` — it changes nothing else, and IDs find the same elements;
* `eq_of_undocumented` — **a registry is what it is without documentation, and the documentation of each
  element**;
* `element?_injective` — different IDs find different elements;
* `element?_eq_some_iff` — where elements have IDs of their own, **an ID finds the element that has it**.
-/

namespace ApiModel

/-! ## Without documentation -/

def Field.undocumented (f : Field) : Field := { f with documentation := "" }

def EnumValue.undocumented (v : EnumValue) : EnumValue := { v with documentation := "" }

/-- The message without its documentation and that of its fields. -/
def Message.undocumented (m : Message) : Message :=
  { m with documentation := "", fields := m.fields.map Field.undocumented }

/-- The enumeration without its documentation and that of its values. -/
def Enumeration.undocumented (e : Enumeration) : Enumeration :=
  { e with documentation := "", values := e.values.map EnumValue.undocumented }

def Service.undocumented (s : Service) : Service := { s with documentation := "" }

def Method.undocumented (m : Method) : Method := { m with documentation := "" }

/-- The registry without the documentation of its elements. -/
def Registry.undocumented (r : Registry) : Registry :=
  { messages := r.messages.map fun _ => Message.undocumented
    enums := r.enums.map fun _ => Enumeration.undocumented
    services := r.services.map fun _ => Service.undocumented
    methods := r.methods.map fun _ => Method.undocumented
    resources := r.resources }

/-- The model without the documentation of its elements. -/
def Api.undocumented (api : Api) : Api := { api with registry := api.registry.undocumented }

namespace IdMap

variable {α β : Type} {m : IdMap α} {id x : String} {f : α → α}

/-- What a change of one element does not touch, a lookup does not see. -/
theorem map_get?_modify {view : α → β} (h : x = id → ∀ a, view (f a) = view a) :
    ((m.modify id f).get? x).map view = (m.get? x).map view := by
  rw [get?_modify]
  split
  · rename_i hx
    rw [Option.map_map]
    exact congrArg (Option.map · _) (funext (h hx))
  · rfl

theorem bind_get?_modify {view : α → Option β} (h : x = id → ∀ a, view (f a) = view a) :
    ((m.modify id f).get? x).bind view = (m.get? x).bind view := by
  have hmap := congrArg (Option.bind · fun b => b) (map_get?_modify (m := m) h)
  simpa [Option.bind_map, Function.comp_def] using hmap

end IdMap

namespace Registry

variable {r r' : Registry} {x y : DocumentedElement} {text id : String}

/-! ## Documenting one element -/

theorem documentation?_document_self :
    (r.document text x).documentation? x = (r.documentation? x).map fun _ => text := by
  cases x <;> simp [document, documentation?, Option.map_bind, Option.bind_map, Function.comp_def]

theorem documentation?_document_of_ne (h : y ≠ x) :
    (r.document text x).documentation? y = r.documentation? y := by
  cases x with
  | message id =>
    cases y with
    | message x => exact IdMap.map_get?_modify fun heq => absurd (congrArg _ heq) h
    | field x j => exact IdMap.bind_get?_modify fun _ _ => rfl
    | _ => rfl
  | enumeration id =>
    cases y with
    | enumeration x => exact IdMap.map_get?_modify fun heq => absurd (congrArg _ heq) h
    | value x j => exact IdMap.bind_get?_modify fun _ _ => rfl
    | _ => rfl
  | service id =>
    cases y with
    | service x => exact IdMap.map_get?_modify fun heq => absurd (congrArg _ heq) h
    | _ => rfl
  | method id =>
    cases y with
    | method x => exact IdMap.map_get?_modify fun heq => absurd (congrArg _ heq) h
    | _ => rfl
  | field id i =>
    cases y with
    | message x => exact IdMap.map_get?_modify fun _ _ => rfl
    | field x j =>
      refine IdMap.bind_get?_modify fun heq m => ?_
      have hj : i ≠ j := fun hj => h (heq ▸ hj ▸ rfl)
      exact congrArg (Option.map _) (List.getElem?_modify_ne _ m.fields hj)
    | _ => rfl
  | value id i =>
    cases y with
    | enumeration x => exact IdMap.map_get?_modify fun _ _ => rfl
    | value x j =>
      refine IdMap.bind_get?_modify fun heq e => ?_
      have hj : i ≠ j := fun hj => h (heq ▸ hj ▸ rfl)
      exact congrArg (Option.map _) (List.getElem?_modify_ne _ e.values hj)
    | _ => rfl

/-- **Documenting one element does so and leaves the others as they are.** -/
theorem documentation?_document (r : Registry) (text : String) (x y : DocumentedElement) :
    (r.document text x).documentation? y =
      if y = x then (r.documentation? y).map fun _ => text else r.documentation? y := by
  split
  · rename_i h
    rw [h, documentation?_document_self]
  · rename_i h
    exact documentation?_document_of_ne h

/-- Documenting an element changes documentation only. -/
theorem undocumented_document (r : Registry) (text : String) (x : DocumentedElement) :
    (r.document text x).undocumented = r.undocumented := by
  cases x with
  | message id =>
    refine congrArg (fun messages => { r.undocumented with messages }) ?_
    exact IdMap.map_modify Message.undocumented fun _ => rfl
  | enumeration id =>
    refine congrArg (fun enums => { r.undocumented with enums }) ?_
    exact IdMap.map_modify Enumeration.undocumented fun _ => rfl
  | service id =>
    refine congrArg (fun services => { r.undocumented with services }) ?_
    exact IdMap.map_modify Service.undocumented fun _ => rfl
  | method id =>
    refine congrArg (fun methods => { r.undocumented with methods }) ?_
    exact IdMap.map_modify Method.undocumented fun _ => rfl
  | field id i =>
    refine congrArg (fun messages => { r.undocumented with messages }) ?_
    refine IdMap.map_modify Message.undocumented fun m => ?_
    have hfields := Outcome.map_list_modify Field.undocumented
      (f := fun f => { f with documentation := text }) (fun _ => rfl) m.fields i
    simp only [Message.undocumented, hfields]
  | value id i =>
    refine congrArg (fun enums => { r.undocumented with enums }) ?_
    refine IdMap.map_modify Enumeration.undocumented fun e => ?_
    have hvalues := Outcome.map_list_modify EnumValue.undocumented
      (f := fun v => { v with documentation := text }) (fun _ => rfl) e.values i
    simp only [Enumeration.undocumented, hvalues]

end Registry

/-! ## The registry from its documentation -/

/-- What agrees without documentation and in the documentation, agrees. -/
theorem Field.eq_of_undocumented {f g : Field} (h : f.undocumented = g.undocumented)
    (hdoc : f.documentation = g.documentation) : f = g :=
  calc f = { f.undocumented with documentation := f.documentation } := rfl
    _ = { g.undocumented with documentation := g.documentation } := by rw [h, hdoc]
    _ = g := rfl

theorem EnumValue.eq_of_undocumented {v w : EnumValue} (h : v.undocumented = w.undocumented)
    (hdoc : v.documentation = w.documentation) : v = w :=
  calc v = { v.undocumented with documentation := v.documentation } := rfl
    _ = { w.undocumented with documentation := w.documentation } := by rw [h, hdoc]
    _ = w := rfl

theorem Service.eq_of_undocumented {s t : Service} (h : s.undocumented = t.undocumented)
    (hdoc : s.documentation = t.documentation) : s = t :=
  calc s = { s.undocumented with documentation := s.documentation } := rfl
    _ = { t.undocumented with documentation := t.documentation } := by rw [h, hdoc]
    _ = t := rfl

theorem Method.eq_of_undocumented {m n : Method} (h : m.undocumented = n.undocumented)
    (hdoc : m.documentation = n.documentation) : m = n :=
  calc m = { m.undocumented with documentation := m.documentation } := rfl
    _ = { n.undocumented with documentation := n.documentation } := by rw [h, hdoc]
    _ = n := rfl

/-- Lists that agree in two views agree, if the views tell their members apart. -/
theorem list_eq_of_views {α β γ : Type} {f : α → β} {g : α → γ}
    (hviews : ∀ a b, f a = f b → g a = g b → a = b) {as bs : List α} (hf : as.map f = bs.map f)
    (hg : ∀ i : Nat, as[i]?.map g = bs[i]?.map g) : as = bs := by
  apply List.ext_getElem?
  intro i
  have hfi : as[i]?.map f = bs[i]?.map f := by
    rw [← List.getElem?_map, ← List.getElem?_map, hf]
  have hgi := hg i
  cases ha : as[i]? with
  | none =>
    rw [ha] at hfi
    exact (Option.map_eq_none_iff.1 hfi.symm).symm
  | some a =>
    rw [ha] at hfi hgi
    obtain ⟨b, hb, hfb⟩ := Option.map_eq_some_iff.1 hfi.symm
    rw [hb] at hgi ⊢
    exact congrArg some (hviews a b hfb.symm (Option.some.inj hgi))

theorem Message.eq_of_undocumented {m n : Message} (h : m.undocumented = n.undocumented)
    (hdoc : m.documentation = n.documentation)
    (hfields : ∀ i : Nat, m.fields[i]?.map (·.documentation) = n.fields[i]?.map (·.documentation)) :
    m = n := by
  have hfields : m.fields = n.fields :=
    list_eq_of_views (fun _ _ => Field.eq_of_undocumented) (congrArg Message.fields h) hfields
  calc m = { m.undocumented with documentation := m.documentation, fields := m.fields } := rfl
    _ = { n.undocumented with documentation := n.documentation, fields := n.fields } := by
      rw [h, hdoc, hfields]
    _ = n := rfl

theorem Enumeration.eq_of_undocumented {e d : Enumeration} (h : e.undocumented = d.undocumented)
    (hdoc : e.documentation = d.documentation)
    (hvalues : ∀ i : Nat, e.values[i]?.map (·.documentation) = d.values[i]?.map (·.documentation)) :
    e = d := by
  have hvalues : e.values = d.values :=
    list_eq_of_views (fun _ _ => EnumValue.eq_of_undocumented) (congrArg Enumeration.values h) hvalues
  calc e = { e.undocumented with documentation := e.documentation, values := e.values } := rfl
    _ = { d.undocumented with documentation := d.documentation, values := d.values } := by
      rw [h, hdoc, hvalues]
    _ = d := rfl

/-- Maps that agree in a view agree, if what they hold under an ID agrees then. -/
theorem IdMap.eq_of_view {α β : Type} {m n : IdMap α} {f : α → β}
    (h : (m.map fun _ => f) = n.map fun _ => f)
    (hentry : ∀ id a b, m.get? id = some a → n.get? id = some b → f a = f b → a = b) : m = n := by
  apply IdMap.ext
  intro id
  have hid : (m.get? id).map f = (n.get? id).map f := by
    rw [← IdMap.get?_map m fun _ => f, h, IdMap.get?_map]
  cases ha : m.get? id with
  | none =>
    rw [ha] at hid
    exact (Option.map_eq_none_iff.1 hid.symm).symm
  | some a =>
    rw [ha] at hid
    obtain ⟨b, hb, hfb⟩ := Option.map_eq_some_iff.1 hid.symm
    rw [hb, hentry id a b ha hb hfb.symm]

namespace Registry

variable {r r' : Registry} {x y : DocumentedElement} {text id : String}

/-- **A registry is what it is without documentation, and the documentation of each element.** -/
theorem eq_of_undocumented (h : r'.undocumented = r.undocumented)
    (hdoc : ∀ x, r'.documentation? x = r.documentation? x) : r' = r := by
  have hmessages : r'.messages = r.messages := by
    refine IdMap.eq_of_view (congrArg Registry.messages h) fun id a b ha hb hab => ?_
    have hmessage := hdoc (.message id)
    have hfield := fun i => hdoc (.field id i)
    simp only [documentation?, ha, hb, Option.map_some, Option.bind_some, Option.some.injEq] at *
    exact Message.eq_of_undocumented hab hmessage hfield
  have henums : r'.enums = r.enums := by
    refine IdMap.eq_of_view (congrArg Registry.enums h) fun id a b ha hb hab => ?_
    have henum := hdoc (.enumeration id)
    have hvalue := fun i => hdoc (.value id i)
    simp only [documentation?, ha, hb, Option.map_some, Option.bind_some, Option.some.injEq] at *
    exact Enumeration.eq_of_undocumented hab henum hvalue
  have hservices : r'.services = r.services := by
    refine IdMap.eq_of_view (congrArg Registry.services h) fun id a b ha hb hab => ?_
    have hservice := hdoc (.service id)
    simp only [documentation?, ha, hb, Option.map_some, Option.some.injEq] at hservice
    exact Service.eq_of_undocumented hab hservice
  have hmethods : r'.methods = r.methods := by
    refine IdMap.eq_of_view (congrArg Registry.methods h) fun id a b ha hb hab => ?_
    have hmethod := hdoc (.method id)
    simp only [documentation?, ha, hb, Option.map_some, Option.some.injEq] at hmethod
    exact Method.eq_of_undocumented hab hmethod
  have hresources : r'.undocumented.resources = r.undocumented.resources := by rw [h]
  calc r' = ⟨r'.messages, r'.enums, r'.services, r'.methods, r'.resources⟩ := rfl
    _ = ⟨r.messages, r.enums, r.services, r.methods, r.resources⟩ := by
      rw [hmessages, henums, hservices, hmethods, show r'.resources = r.resources from hresources]
    _ = r := rfl

/-! ## Elements by their IDs -/

/-- IDs find elements whatever the documentation. -/
theorem element?_undocumented (r : Registry) (id : String) :
    r.undocumented.element? id = r.element? id := by
  have hmember : r.undocumented.member? id = r.member? id := by
    unfold member?
    refine bind_congr fun cut => ?_
    simp only [undocumented, IdMap.get?_map]
    cases r.messages.get? (String.ofList cut.1) with
    | some m => simp [Message.undocumented, Field.undocumented, List.findIdx?_map, Function.comp_def]
    | none =>
      cases r.enums.get? (String.ofList cut.1) with
      | some e =>
        simp [Enumeration.undocumented, EnumValue.undocumented, List.findIdx?_map, Function.comp_def]
      | none => rfl
  unfold element?
  simp only [hmember]
  simp only [undocumented, IdMap.contains_map]

theorem element?_congr (h : r'.undocumented = r.undocumented) (id : String) :
    r'.element? id = r.element? id := by
  rw [← element?_undocumented r', h, element?_undocumented]

/-- The ID of an element. -/
def idOf? (r : Registry) : DocumentedElement → Option String
  | .message k => (r.messages.get? k).map (·.id)
  | .enumeration k => (r.enums.get? k).map (·.id)
  | .service k => (r.services.get? k).map (·.id)
  | .method k => (r.methods.get? k).map (·.id)
  | .field k i => (r.messages.get? k).bind fun m => m.fields[i]?.map (·.id)
  | .value k i => (r.enums.get? k).bind fun e => e.values[i]?.map (·.id)

/-- All elements by their places. -/
def elements (r : Registry) : List DocumentedElement :=
  (r.messages.entries.flatMap fun (k, m) =>
    .message k :: (List.range m.fields.length).map (.field k)) ++
  (r.enums.entries.flatMap fun (k, e) =>
    .enumeration k :: (List.range e.values.length).map (.value k)) ++
  r.services.keys.map .service ++ r.methods.keys.map .method

/-- The places that hold an element are listed. -/
theorem mem_elements_of_idOf? (h : r.idOf? x = some id) : x ∈ r.elements := by
  have hkey : ∀ {α : Type} {m : IdMap α} {k : String} {a : α}, m.get? k = some a → k ∈ m.keys :=
    fun ha => IdMap.mem_keys_iff.2 (by rw [IdMap.contains, ha]; rfl)
  simp only [elements, List.mem_append, List.mem_flatMap, List.mem_cons, List.mem_map, List.mem_range]
  cases x with
  | message k =>
    obtain ⟨m, hm, -⟩ := Option.map_eq_some_iff.1 h
    exact .inl (.inl (.inl ⟨(k, m), IdMap.get?_eq_some_iff.1 hm, .inl rfl⟩))
  | enumeration k =>
    obtain ⟨e, he, -⟩ := Option.map_eq_some_iff.1 h
    exact .inl (.inl (.inr ⟨(k, e), IdMap.get?_eq_some_iff.1 he, .inl rfl⟩))
  | service k =>
    obtain ⟨s, hs, -⟩ := Option.map_eq_some_iff.1 h
    exact .inl (.inr ⟨k, hkey hs, rfl⟩)
  | method k =>
    obtain ⟨m, hm, -⟩ := Option.map_eq_some_iff.1 h
    exact .inr ⟨k, hkey hm, rfl⟩
  | field k i =>
    obtain ⟨m, hm, hf⟩ := Option.bind_eq_some_iff.1 h
    obtain ⟨f, hf, -⟩ := Option.map_eq_some_iff.1 hf
    obtain ⟨hi, -⟩ := List.getElem?_eq_some_iff.1 hf
    exact .inl (.inl (.inl ⟨(k, m), IdMap.get?_eq_some_iff.1 hm, .inr ⟨i, hi, rfl⟩⟩))
  | value k i =>
    obtain ⟨e, he, hv⟩ := Option.bind_eq_some_iff.1 h
    obtain ⟨v, hv, -⟩ := Option.map_eq_some_iff.1 hv
    obtain ⟨hi, -⟩ := List.getElem?_eq_some_iff.1 hv
    exact .inl (.inl (.inr ⟨(k, e), IdMap.get?_eq_some_iff.1 he, .inr ⟨i, hi, rfl⟩⟩))

/-- The ID is a name inside the element with the owner's ID. -/
def IsMemberId (owner id : String) : Prop :=
  ∃ name : String, '.' ∉ name.toList ∧ id = memberId owner name

/-- The ID is cut at its last dot into that of the owner and the name. -/
theorem IsMemberId.exists_cut {owner id : String} (h : IsMemberId owner id) :
    ∃ name, Text.cutLast '.' id.toList = some (owner.toList, name) := by
  obtain ⟨name, hfree, rfl⟩ := h
  exact ⟨name.toList, Text.cutLast_eq_some.2 ⟨by simp [memberId], hfree⟩⟩

theorem isMemberId_iff {owner id : String} :
    IsMemberId owner id ↔ (Text.cutLast '.' id.toList).map Prod.fst = some owner.toList := by
  rw [Option.map_eq_some_iff]
  constructor
  · intro h
    obtain ⟨name, hcut⟩ := h.exists_cut
    exact ⟨_, hcut, rfl⟩
  · rintro ⟨⟨_, name⟩, hcut, rfl⟩
    obtain ⟨hid, hfree⟩ := Text.cutLast_eq_some.1 hcut
    refine ⟨String.ofList name, by simpa using hfree, String.toList_inj.1 ?_⟩
    simpa [memberId] using hid

instance (owner id : String) : Decidable (IsMemberId owner id) :=
  decidable_of_iff _ isMemberId_iff.symm

/-- Elements have IDs of their own: they are registered under them, no two elements share one, and the IDs of
fields and values are names inside their owners. -/
structure Identified (r : Registry) : Prop where
  messages : r.messages.KeyedBy (·.id)
  enums : r.enums.KeyedBy (·.id)
  services : r.services.KeyedBy (·.id)
  methods : r.methods.KeyedBy (·.id)
  distinct : (r.elements.map r.idOf?).Nodup
  fields : ∀ m ∈ r.messages.values, ∀ f ∈ m.fields, IsMemberId m.id f.id
  values : ∀ e ∈ r.enums.values, ∀ v ∈ e.values, IsMemberId e.id v.id

instance (r : Registry) : Decidable r.Identified :=
  decidable_of_iff (r.messages.KeyedBy (·.id) ∧ r.enums.KeyedBy (·.id) ∧ r.services.KeyedBy (·.id) ∧
      r.methods.KeyedBy (·.id) ∧ (r.elements.map r.idOf?).Nodup ∧
      (∀ m ∈ r.messages.values, ∀ f ∈ m.fields, IsMemberId m.id f.id) ∧
      ∀ e ∈ r.enums.values, ∀ v ∈ e.values, IsMemberId e.id v.id)
    ⟨fun ⟨messages, enums, services, methods, distinct, fields, values⟩ =>
      ⟨messages, enums, services, methods, distinct, fields, values⟩,
      fun h => ⟨h.messages, h.enums, h.services, h.methods, h.distinct, h.fields, h.values⟩⟩

/-- Two elements with one ID are the same. -/
theorem Identified.eq_of_idOf? (h : r.Identified) (hx : r.idOf? x = some id)
    (hy : r.idOf? y = some id) : x = y :=
  List.inj_on_of_nodup_map h.distinct (mem_elements_of_idOf? hx) (mem_elements_of_idOf? hy)
    (hx.trans hy.symm)

/-! ## Which element an ID finds -/

/-- What a member is found by: the ID that it has itself. -/
theorem idOf?_of_member? (h : r.member? id = some x) :
    r.idOf? x = some id ∧ ∃ k i, x = .field k i ∨ x = .value k i := by
  unfold member? at h
  obtain ⟨⟨owner, name⟩, -, h⟩ := Option.bind_eq_some_iff.1 h
  dsimp only at h
  split at h
  · rename_i m hm
    obtain ⟨i, hi, rfl⟩ := Option.map_eq_some_iff.1 h
    obtain ⟨hlt, hid, -⟩ := List.findIdx?_eq_some_iff_getElem.1 hi
    exact ⟨by simpa [idOf?, hm, List.getElem?_eq_getElem hlt] using hid, _, i, .inl rfl⟩
  · obtain ⟨e, he, h⟩ := Option.bind_eq_some_iff.1 h
    obtain ⟨i, hi, rfl⟩ := Option.map_eq_some_iff.1 h
    obtain ⟨hlt, hid, -⟩ := List.findIdx?_eq_some_iff_getElem.1 hi
    exact ⟨by simpa [idOf?, he, List.getElem?_eq_getElem hlt] using hid, _, i, .inr rfl⟩

/-- What an element is looked up by: the ID that it is registered under, or else the one that it has. -/
def keyOf? (r : Registry) : DocumentedElement → Option String
  | .message k | .enumeration k | .service k | .method k => some k
  | .field k i => r.idOf? (.field k i)
  | .value k i => r.idOf? (.value k i)

/-- What an ID finds: what is registered under it, or else a member. -/
theorem element?_cases (h : r.element? id = some x) :
    (r.messages.contains id ∧ x = .message id) ∨ (r.enums.contains id ∧ x = .enumeration id) ∨
      (r.services.contains id ∧ x = .service id) ∨ (r.methods.contains id ∧ x = .method id) ∨
      r.member? id = some x := by
  unfold element? at h
  split at h
  · rename_i hid
    exact .inl ⟨hid, (Option.some.inj h).symm⟩
  split at h
  · rename_i hid
    exact .inr (.inl ⟨hid, (Option.some.inj h).symm⟩)
  split at h
  · rename_i hid
    exact .inr (.inr (.inl ⟨hid, (Option.some.inj h).symm⟩))
  split at h
  · rename_i hid
    exact .inr (.inr (.inr (.inl ⟨hid, (Option.some.inj h).symm⟩)))
  · exact .inr (.inr (.inr (.inr h)))

theorem keyOf?_of_element? (h : r.element? id = some x) : r.keyOf? x = some id := by
  rcases element?_cases h with ⟨-, rfl⟩ | ⟨-, rfl⟩ | ⟨-, rfl⟩ | ⟨-, rfl⟩ | hmember
  · rfl
  · rfl
  · rfl
  · rfl
  · obtain ⟨hid, k, i, rfl | rfl⟩ := idOf?_of_member? hmember
    · exact hid
    · exact hid

/-- **Different IDs find different elements.** -/
theorem element?_injective {a b : String} (ha : r.element? a = some x) (hb : r.element? b = some x) :
    a = b :=
  Option.some.inj ((keyOf?_of_element? ha).symm.trans (keyOf?_of_element? hb))

end Registry

namespace IdMap

variable {α : Type} {m : IdMap α} {idOf : α → String} {k id : String}

theorem KeyedBy.idOf_of_contains (h : m.KeyedBy idOf) (hid : m.contains id = true) :
    (m.get? id).map idOf = some id := by
  obtain ⟨a, ha⟩ := Option.isSome_iff_exists.1 hid
  rw [ha, Option.map_some, h id a ha]

/-- What has an ID is registered under it. -/
theorem KeyedBy.contains_of_idOf (h : m.KeyedBy idOf) (hid : (m.get? k).map idOf = some id) :
    m.contains id = true := by
  obtain ⟨a, ha, rfl⟩ := Option.map_eq_some_iff.1 hid
  rw [h k a ha, contains, ha]
  rfl

end IdMap

namespace Registry

variable {r r' : Registry} {x y : DocumentedElement} {text id : String}

/-- The element that an ID finds has the ID. -/
theorem Identified.idOf?_of_element? (h : r.Identified) (hx : r.element? id = some x) :
    r.idOf? x = some id := by
  rcases element?_cases hx with ⟨hid, rfl⟩ | ⟨hid, rfl⟩ | ⟨hid, rfl⟩ | ⟨hid, rfl⟩ | hmember
  · exact h.messages.idOf_of_contains hid
  · exact h.enums.idOf_of_contains hid
  · exact h.services.idOf_of_contains hid
  · exact h.methods.idOf_of_contains hid
  · exact (idOf?_of_member? hmember).1

/-- A field is found through the message that its ID without the last name names. -/
theorem Identified.isSome_member?_field (h : r.Identified) {k : String} {i : Nat}
    (hx : r.idOf? (.field k i) = some id) : (r.member? id).isSome := by
  obtain ⟨m, hm, hid⟩ := Option.bind_eq_some_iff.1 hx
  obtain ⟨f, hf, rfl⟩ := Option.map_eq_some_iff.1 hid
  have hmem := List.mem_of_getElem? hf
  obtain ⟨name, hcut⟩ := (h.fields m (IdMap.mem_values_iff.2 ⟨k, hm⟩) f hmem).exists_cut
  have hk : m.id = k := h.messages k m hm
  rw [hk] at hcut
  unfold member?
  rw [hcut]
  simp only [Option.bind_eq_bind, Option.bind_some, String.ofList_toList, hm, Option.isSome_map,
    List.findIdx?_isSome, List.any_eq_true, beq_iff_eq]
  exact ⟨f, hmem, rfl⟩

/-- A value is found through the enumeration that its ID without the last name names. -/
theorem Identified.isSome_member?_value (h : r.Identified) {k : String} {i : Nat}
    (hx : r.idOf? (.value k i) = some id) : (r.member? id).isSome := by
  obtain ⟨e, he, hid⟩ := Option.bind_eq_some_iff.1 hx
  obtain ⟨v, hv, rfl⟩ := Option.map_eq_some_iff.1 hid
  have hmem := List.mem_of_getElem? hv
  obtain ⟨name, hcut⟩ := (h.values e (IdMap.mem_values_iff.2 ⟨k, he⟩) v hmem).exists_cut
  have hk : e.id = k := h.enums k e he
  rw [hk] at hcut
  -- the owner's ID is no message's, so the look at the messages comes to nothing
  have hmessage : r.messages.get? k = none := by
    by_contra hsome
    obtain ⟨m, hm⟩ := Option.ne_none_iff_exists'.1 hsome
    have hmid : r.idOf? (.message k) = some k := by
      rw [idOf?, hm]
      exact congrArg some (h.messages k m hm)
    have heid : r.idOf? (.enumeration k) = some k := by
      rw [idOf?, he]
      exact congrArg some hk
    cases h.eq_of_idOf? hmid heid
  unfold member?
  rw [hcut]
  simp only [Option.bind_eq_bind, Option.bind_some, String.ofList_toList, hmessage, he,
    Option.isSome_map, List.findIdx?_isSome, List.any_eq_true, beq_iff_eq]
  exact ⟨v, hmem, rfl⟩

/-- Every element is found by its ID. -/
theorem Identified.isSome_element? (h : r.Identified) (hx : r.idOf? x = some id) :
    (r.element? id).isSome := by
  unfold element?
  split
  · rfl
  rename_i hmessages
  split
  · rfl
  rename_i henums
  split
  · rfl
  rename_i hservices
  split
  · rfl
  rename_i hmethods
  cases x with
  | message k => exact absurd (h.messages.contains_of_idOf hx) hmessages
  | enumeration k => exact absurd (h.enums.contains_of_idOf hx) henums
  | service k => exact absurd (h.services.contains_of_idOf hx) hservices
  | method k => exact absurd (h.methods.contains_of_idOf hx) hmethods
  | field k i => exact h.isSome_member?_field hx
  | value k i => exact h.isSome_member?_value hx

/-- **An ID finds the element that has it**, and nothing if no element has. -/
theorem Identified.element?_eq_some_iff (h : r.Identified) :
    r.element? id = some x ↔ r.idOf? x = some id := by
  constructor
  · exact h.idOf?_of_element?
  · intro hx
    obtain ⟨y, hy⟩ := Option.isSome_iff_exists.1 (h.isSome_element? hx)
    rw [hy, h.eq_of_idOf? hx (h.idOf?_of_element? hy)]

end Registry

end ApiModel
