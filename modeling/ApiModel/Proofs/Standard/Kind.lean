import ApiModel.Proofs.Stable
import ApiModel.Proofs.Standard.Carrying
import ApiModel.View

/-!
# One kind for each method

The kinds of standard methods are recognised one by one, and nothing in the recognisers rules the other
kinds out.  The verbs do: a name that begins with one of them begins with no other.  So what the view shows
of a method does not depend on the order in which it looks for the kinds.

Principal results:

* `StandardKind.eq_of_afterVerb?` — a name begins with the verb of one kind at most;
* `shown?_eq_some_iff` — where the kind is unique, every order of looking for it finds it;
* `standard_of_crossReference` — **a method is of one standard kind at most, and a cross-referenced model
  shows that kind** with the field it is keyed on.
-/

namespace ApiModel

open ApiModel.Text

/-! ## Kinds -/

/-- The kinds of standard methods, in the order in which the view looks for them. -/
inductive StandardKind where
  | get
  | list
  | create
  | update
  | delete
  | undelete
  deriving DecidableEq

namespace StandardKind

/-- The verb that the name of a method begins with. -/
def verb : StandardKind → String
  | .get => "get"
  | .list => "list"
  | .create => "create"
  | .update => "update"
  | .delete => "delete"
  | .undelete => "undelete"

/-- No verb begins with another one. -/
theorem eq_of_begins {k l : StandardKind} (h : foldCase k.verb.toList <+: foldCase l.verb.toList) :
    k = l := by
  cases k <;> cases l <;> first | rfl | exact absurd h (by decide)

/-- A name begins with the verb of one kind at most. -/
theorem eq_of_afterVerb? {k l : StandardKind} {name : String} {subject rest : List Char}
    (hk : Standard.afterVerb? k.verb name = some subject)
    (hl : Standard.afterVerb? l.verb name = some rest) : k = l := by
  rcases Standard.prefix_of_afterVerb? hk hl with hprefix | hprefix
  · exact eq_of_begins hprefix
  · exact (eq_of_begins hprefix).symm

end StandardKind

namespace StandardFields

variable {s : StandardFields} {k l : StandardKind} {order : List StandardKind} {field : String}

/-- The request field that a method of the kind is keyed on; nothing if the method is not of the kind. -/
def key? (s : StandardFields) : StandardKind → Option String
  | .get => s.get
  | .list => s.list
  | .create => s.create.map (·.parent)
  | .update => s.update.map (·.resource)
  | .delete => s.delete
  | .undelete => s.undelete

/-- What is shown if the kinds are looked for in an order. -/
def shown? (s : StandardFields) (order : List StandardKind) : Option StandardView :=
  order.findSome? fun k => (s.key? k).map (⟨k.verb, ·⟩)

/-- The method is of one kind at most. -/
def Exclusive (s : StandardFields) : Prop :=
  ∀ k l, (s.key? k).isSome → (s.key? l).isSome → k = l

@[simp] theorem shown?_nil (s : StandardFields) : s.shown? [] = none := rfl

theorem shown?_cons (s : StandardFields) (k : StandardKind) (order : List StandardKind) :
    s.shown? (k :: order) = ((s.key? k).map (⟨k.verb, ·⟩)).or (s.shown? order) := by
  unfold shown?
  rw [List.findSome?_cons]
  cases s.key? k <;> rfl

/-- The view looks for the kinds one after the other. -/
theorem view?_eq_shown? (s : StandardFields) :
    s.view? = s.shown? [.get, .list, .create, .update, .delete, .undelete] := by
  simp only [shown?_cons, shown?_nil, Option.or_none, key?, Option.map_map]
  rfl

theorem any_iff : s.any = true ↔ ∃ k, (s.key? k).isSome := by
  simp only [any, Bool.or_eq_true]
  constructor
  · rintro (((((h | h) | h) | h) | h) | h)
    · exact ⟨.get, h⟩
    · exact ⟨.delete, h⟩
    · exact ⟨.undelete, h⟩
    · exact ⟨.create, by simpa [key?] using h⟩
    · exact ⟨.update, by simpa [key?] using h⟩
    · exact ⟨.list, h⟩
  · rintro ⟨k, h⟩
    cases k <;> simp only [key?, Option.isSome_map] at h <;> simp [h]

/-- Where the kind is unique, every order of looking for it finds it. -/
theorem shown?_eq_some_iff (h : s.Exclusive) (hall : ∀ k, k ∈ order) {v : StandardView} :
    s.shown? order = some v ↔ ∃ k field, s.key? k = some field ∧ v = ⟨k.verb, field⟩ := by
  have hfound : ∀ {v}, s.shown? order = some v → ∃ k field, s.key? k = some field ∧
      v = ⟨k.verb, field⟩ := by
    intro v hv
    obtain ⟨k, -, hk⟩ := List.exists_of_findSome?_eq_some hv
    obtain ⟨field, hfield, rfl⟩ := Option.map_eq_some_iff.1 hk
    exact ⟨k, field, hfield, rfl⟩
  constructor
  · exact hfound
  · rintro ⟨k, field, hfield, rfl⟩
    have hsome : (s.shown? order).isSome := by
      rw [shown?, List.findSome?_isSome_iff]
      exact ⟨k, hall k, by rw [hfield]; rfl⟩
    obtain ⟨v, hv⟩ := Option.isSome_iff_exists.1 hsome
    obtain ⟨l, other, hother, rfl⟩ := hfound hv
    -- it is the same kind, and so the same field
    obtain rfl : l = k := h l k (by rw [hother]; rfl) (by rw [hfield]; rfl)
    rw [hv, Option.some.inj (hother.symm.trans hfield)]

theorem view?_eq_some_iff (h : s.Exclusive) {v : StandardView} :
    s.view? = some v ↔ ∃ k field, s.key? k = some field ∧ v = ⟨k.verb, field⟩ := by
  rw [view?_eq_shown?]
  apply shown?_eq_some_iff h
  intro k
  cases k <;> decide

theorem shown?_eq_view? (h : s.Exclusive) (hall : ∀ k, k ∈ order) : s.shown? order = s.view? := by
  apply Option.ext
  intro v
  rw [shown?_eq_some_iff h hall, view?_eq_some_iff h]

theorem any_iff_existsUnique (h : s.Exclusive) : s.any = true ↔ ∃! k, (s.key? k).isSome := by
  rw [any_iff]
  constructor
  · rintro ⟨k, hk⟩
    exact ⟨k, hk, fun l hl => h l k hl hk⟩
  · exact ExistsUnique.exists

theorem isSome_view?_iff (h : s.Exclusive) : s.view?.isSome ↔ s.any = true := by
  rw [Option.isSome_iff_exists, any_iff]
  constructor
  · rintro ⟨v, hv⟩
    obtain ⟨k, field, hfield, -⟩ := (view?_eq_some_iff h).1 hv
    exact ⟨k, by rw [hfield]; rfl⟩
  · rintro ⟨k, hk⟩
    obtain ⟨field, hfield⟩ := Option.isSome_iff_exists.1 hk
    exact ⟨_, (view?_eq_some_iff h).2 ⟨k, field, hfield, rfl⟩⟩

end StandardFields

/-! ## The kind of a method -/

namespace Standard

variable {api : Api} {m : Method} {t : Traits} {field : String}

/-- A list method is named after its subject. -/
theorem exists_namedAfter_of_listField? (h : listField? api m t = some field) :
    ∃ request subject, NamedAfter "list" m request subject := by
  simp only [listField?, Option.bind_eq_bind, Option.bind_eq_some_iff, subject?_eq_some_iff] at h
  obtain ⟨-, -, request, -, _, -, subject, named, -⟩ := h
  exact ⟨request, subject, named⟩

/-- A method of a kind is named after its subject, with the verb of the kind. -/
theorem exists_namedAfter_of_key? {k : StandardKind}
    (h : (m.classify api).standard.key? k = some field) :
    ∃ request subject, NamedAfter k.verb m request subject := by
  cases k with
  | get =>
    obtain ⟨request, subject, _, _, hgets, -⟩ := getField?_eq_some_iff.1 h
    exact ⟨request, subject, hgets.named⟩
  | list => exact exists_namedAfter_of_listField? h
  | create =>
    obtain ⟨recorded, hrecorded, -⟩ := Option.map_eq_some_iff.1 h
    obtain ⟨request, subject, _, _, _, _, hcreates⟩ := createFields?_eq_some_iff.1 hrecorded
    exact ⟨request, subject, hcreates.writes.named⟩
  | update =>
    obtain ⟨recorded, hrecorded, -⟩ := Option.map_eq_some_iff.1 h
    obtain ⟨request, subject, _, _, _, _, hupdates⟩ := updateFields?_eq_some_iff.1 hrecorded
    exact ⟨request, subject, hupdates.writes.named⟩
  | delete =>
    obtain ⟨request, subject, _, hremoves, -⟩ := nameField?_eq_some_iff.1 h
    exact ⟨request, subject, hremoves.named⟩
  | undelete =>
    obtain ⟨request, subject, _, hremoves, -⟩ := nameField?_eq_some_iff.1 h
    exact ⟨request, subject, hremoves.named⟩

theorem exclusive_classify (api : Api) (m : Method) : (m.classify api).standard.Exclusive := by
  intro k l hk hl
  obtain ⟨_, hk⟩ := Option.isSome_iff_exists.1 hk
  obtain ⟨_, hl⟩ := Option.isSome_iff_exists.1 hl
  obtain ⟨_, _, hk⟩ := exists_namedAfter_of_key? hk
  obtain ⟨_, _, hl⟩ := exists_namedAfter_of_key? hl
  exact StandardKind.eq_of_afterVerb? hk.afterVerb? hl.afterVerb?

end Standard

namespace Api

variable {api : Api} {m : Method}

/-- What the view says of the standard kind of a method. -/
structure ShowsKind (api : Api) (m : Method) : Prop where
  isStandard : m.traits.isStandard = true ↔ ∃! k, (m.traits.standard.key? k).isSome
  shown : (api.methodView m).standard.isSome ↔ m.traits.isStandard = true
  kind : ∀ k field, m.traits.standard.key? k = some field →
    (api.methodView m).standard = some ⟨k.verb, field⟩
  anyOrder : ∀ order, (∀ k, k ∈ order) →
    m.traits.standard.shown? order = (api.methodView m).standard

theorem showsKind_of_traits (h : m.traits = m.classify api) : api.ShowsKind m := by
  have hexclusive : m.traits.standard.Exclusive := by
    rw [h]
    exact Standard.exclusive_classify api m
  have hany : m.traits.isStandard = m.traits.standard.any := by
    rw [h]
    rfl
  refine ⟨?_, ?_, ?_, ?_⟩
  · rw [hany]
    exact StandardFields.any_iff_existsUnique hexclusive
  · rw [hany]
    exact StandardFields.isSome_view?_iff hexclusive
  · intro k field hfield
    exact (StandardFields.view?_eq_some_iff hexclusive).2 ⟨k, field, hfield, rfl⟩
  · intro order hall
    exact StandardFields.shown?_eq_view? hexclusive hall

/-- **A method is of one standard kind at most**, and where the methods are registered under their own IDs a
model that was cross-referenced shows that kind, in whatever order it is looked for. -/
theorem standard_of_crossReference (api : Api) :
    (∀ m : Method, (m.classify api).standard.Exclusive) ∧
      (api.registry.methods.KeyedBy (·.id) → api.crossReference.defect = none →
        ∀ id m, api.crossReference.state.method? id = some m → api.crossReference.state.ShowsKind m) := by
  refine ⟨Standard.exclusive_classify api, fun hkeyed hdefect id m hm => ?_⟩
  have hkeyed : api.crossReference.state.registry.methods.KeyedBy (·.id) := by
    rw [← methodsKeyed_declared, declared_crossReference]
    exact methodsKeyed_declared.2 hkeyed
  exact showsKind_of_traits (traits_of_methodsKeyed hkeyed (settled_of_crossReference hdefect) hm)

/-- A safe with a method that creates a secret under a parent, and one that has the shape but not the verb. -/
def safe : Api :=
  let service := Service.new "Safe" "v1"
  let secret := { Message.new "Secret" "v1" none with resource := some { kind := "safe/Secret" } }
  let request := ((Message.new "CreateSecretRequest" "v1" none).addField
    { name := "safe", jsonName := "safe", kind := .string
      resourceReference := some { childKind := "safe/Secret" } }).addField
    { name := "secret", jsonName := "secret", kind := .message, typeId := secret.id }
  ((({ name := "safe", package := "v1" } : Api).addMessage secret).addMessage request).addService
    service [.new service "CREATESecret" request.id secret.id,
      .new service "RotateSecret" request.id secret.id]

theorem standard_of_crossReference_safe :
    safe.registry.methods.KeyedBy (·.id) ∧ safe.crossReference.defect = none ∧
      (∃ m, safe.crossReference.state.method? ".v1.Safe.CREATESecret" = some m ∧
        safe.crossReference.state.ShowsKind m ∧
        (safe.crossReference.state.methodView m).standard = some ⟨"create", "safe"⟩) ∧
      ∃ m, safe.crossReference.state.method? ".v1.Safe.RotateSecret" = some m ∧
        safe.crossReference.state.ShowsKind m ∧ m.traits.isStandard = false := by
  have hkeyed : safe.registry.methods.KeyedBy (·.id) := by decide
  have hdefect : safe.crossReference.defect = none := rfl
  have hshows := (standard_of_crossReference safe).2 hkeyed hdefect
  have hcreate := hshows ".v1.Safe.CREATESecret" _ rfl
  have hrotate := hshows ".v1.Safe.RotateSecret" _ rfl
  exact ⟨hkeyed, hdefect, ⟨_, rfl, hcreate, hcreate.kind .create "safe" rfl⟩, _, rfl, hrotate, rfl⟩

end Api

end ApiModel
