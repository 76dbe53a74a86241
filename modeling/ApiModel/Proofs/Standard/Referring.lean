import Mathlib.Data.Option.Basic
import ApiModel.Proofs.Standard.Preference
import ApiModel.Proofs.Standard.Subject

/-!
# Methods whose request names a resource

A get method answers with a resource, and its request has a field that refers to the type of it.  Delete and
undelete methods need not answer with anything: their request has a field that refers to a resource with
the singular name that the method is named after.

Principal results:

* `typeNameOf_eq_iff`, `singularOf_eq_iff` — the name of a resource type and its singular;
* `getField?_eq_some_iff`, `nameField?_eq_some_iff` — each kind is recognised by its shape;
* `classify_referring` — **a method is recorded as a get, delete or undelete method if and only if it has
  the shape**, with the field that its request names the resource by.
-/

namespace ApiModel

open ApiModel.Text

/-! ## Shapes -/

/-- The method answers at once and with one message. -/
structure Method.IsSimple (m : Method) : Prop where
  unpaged : m.pagination = none
  oneRequest : m.clientStreaming = false
  oneResponse : m.serverStreaming = false
  immediate : m.operation = none
  unpolled : m.polling = none

/-- The method answers with an operation. -/
def Method.IsLongRunning (m : Method) : Prop := ∃ info, m.operation = some info

theorem Method.flags_isSimple (api : Api) (m : Method) :
    (m.flags api).isSimple = true ↔ m.IsSimple := by
  simp only [flags, Bool.and_eq_true, Bool.not_eq_true', Bool.or_eq_false_iff, Option.isNone_iff_eq_none]
  constructor
  · rintro ⟨⟨⟨unpaged, oneRequest, oneResponse⟩, immediate⟩, unpolled⟩
    exact ⟨unpaged, oneRequest, oneResponse, immediate, unpolled⟩
  · rintro ⟨unpaged, oneRequest, oneResponse, immediate, unpolled⟩
    exact ⟨⟨⟨unpaged, oneRequest, oneResponse⟩, immediate⟩, unpolled⟩

theorem Method.flags_isLro (api : Api) (m : Method) :
    (m.flags api).isLro = true ↔ m.IsLongRunning :=
  Option.isSome_iff_exists

/-- The name of a resource type is what it has behind the last slash. -/
def Resource.IsTypeName (kind name : String) : Prop :=
  '/' ∉ name.toList ∧ (kind = name ∨ ∃ service, kind.toList = service ++ '/' :: name.toList)

/-- The singular of a resource type: the registered one if there is one, or else the name of the type. -/
inductive Api.SingularOf (api : Api) (kind : String) : String → Prop where
  | registered {r : Resource} (found : api.resource? kind = some r) (given : r.singular ≠ "") :
      SingularOf api kind r.singular
  | typeName {name : String} (none : ∀ r, api.resource? kind = some r → r.singular = "")
      (named : Resource.IsTypeName kind name) : SingularOf api kind name

/-- The field refers to a resource with the singular, in any case. -/
def Field.RefersToSingular (api : Api) (singular : List Char) (f : Field) : Prop :=
  ∃ r own, f.resourceReference = some r ∧ api.SingularOf r.kind own ∧
    sameLetters own.toList singular = true

namespace Standard

variable {api : Api} {m : Method} {request : Message} {verb name : String}

/-- A get method: it answers with a resource, and its request names one of the type. -/
structure Gets (api : Api) (m : Method) (request : Message) (subject : List Char)
    (resource : Resource) (field : Field) : Prop where
  input : api.message? m.inputTypeId = some request
  simple : m.IsSimple
  answers : m.outputTypeId ≠ emptyMessageId
  named : NamedAfter "get" m request subject
  carried : ∃ response, api.message? m.outputTypeId = some response ∧ response.resource = some resource
  singular : resource.singular = "" ∨ sameLetters resource.singular.toList subject = true
  preferred : Preferred request.fields
    [fun f => f.name = "name" ∧ f.RefersTo resource.kind, fun f => f.RefersTo resource.kind,
      fun f => f.name = "name" ∧ f.RefersTo "*"] field

/-- A delete or undelete method: its request names a resource that it is named after. -/
structure Removes (verb : String) (api : Api) (m : Method) (request : Message)
    (subject : List Char) (field : Field) : Prop where
  input : api.message? m.inputTypeId = some request
  soon : m.IsSimple ∨ m.IsLongRunning
  named : NamedAfter verb m request subject
  preferred : Preferred request.fields
    [fun f => f.name = "name" ∧ f.RefersToSingular api subject,
      fun f => f.RefersToSingular api subject] field

/-! ## Singular names -/

theorem typeNameOf_eq_iff {kind : String} :
    Resource.typeNameOf kind = name ↔ Resource.IsTypeName kind name := by
  unfold Resource.typeNameOf
  cases hcut : cutLast '/' kind.toList with
  | none =>
    have hfree : '/' ∉ kind.toList := by simpa [cutLast, cutFirst_eq_none] using hcut
    constructor
    · rintro rfl
      exact ⟨hfree, .inl rfl⟩
    · rintro ⟨-, rfl | ⟨service, hkind⟩⟩
      · rfl
      · simp [hkind] at hfree
  | some cut =>
    obtain ⟨service, rest⟩ := cut
    obtain ⟨hkind, hrest⟩ := cutLast_eq_some.1 hcut
    constructor
    · rintro rfl
      simp only [Resource.IsTypeName, String.toList_ofList]
      exact ⟨hrest, .inr ⟨service, hkind⟩⟩
    · rintro ⟨hfree, rfl | ⟨before, hkind'⟩⟩
      · simp [hkind] at hfree
      · rw [cutLast_eq_some.2 ⟨hkind', hfree⟩] at hcut
        obtain ⟨rfl, rfl⟩ := Prod.mk.inj (Option.some.inj hcut)
        exact String.ofList_toList

theorem singularOf_spec (api : Api) (kind : String) : api.SingularOf kind (singularOf api kind) := by
  unfold singularOf
  cases hfound : api.resource? kind with
  | none =>
    refine .typeName ?_ (typeNameOf_eq_iff.1 rfl)
    intro r hr
    rw [hfound] at hr
    cases hr
  | some r =>
    by_cases hgiven : r.singular = ""
    · simp only [String.isEmpty_iff, hgiven, if_true]
      refine .typeName ?_ (typeNameOf_eq_iff.1 rfl)
      intro other hother
      obtain rfl := Option.some.inj (hfound.symm.trans hother)
      exact hgiven
    · simp only [String.isEmpty_iff, hgiven, if_false]
      exact .registered hfound hgiven

theorem singularOf_unique {kind a b : String} (ha : api.SingularOf kind a)
    (hb : api.SingularOf kind b) : a = b := by
  cases ha with
  | registered found given =>
    cases hb with
    | registered found' => rw [Option.some.inj (found.symm.trans found')]
    | typeName none => exact absurd (none _ found) given
  | typeName none named =>
    cases hb with
    | registered found given => exact absurd (none _ found) given
    | typeName _ named' =>
      exact (typeNameOf_eq_iff.2 named).symm.trans (typeNameOf_eq_iff.2 named')

theorem refersToSingular_iff (api : Api) (singular : List Char) (f : Field) :
    refersToSingular api singular f = true ↔ f.RefersToSingular api singular := by
  simp only [refersToSingular, Option.any_eq_true]
  constructor
  · rintro ⟨r, hr, hsame⟩
    exact ⟨r, _, hr, singularOf_spec api r.kind, hsame⟩
  · rintro ⟨r, own, hr, hown, hsame⟩
    rw [singularOf_unique hown (singularOf_spec api r.kind)] at hsame
    exact ⟨r, hr, hsame⟩

theorem singularMatches_iff {resource : Resource} {subject : List Char} :
    singularMatches resource subject = true ↔
      resource.singular = "" ∨ sameLetters resource.singular.toList subject = true := by
  simp [singularMatches]

/-! ## Recognition -/

theorem returnsEmpty_eq_false_iff : m.returnsEmpty = false ↔ m.outputTypeId ≠ emptyMessageId := by
  simp [Method.returnsEmpty]

/-- The message that a simple method answers with is its response. -/
theorem result?_of_isSimple (h : m.IsSimple) : result? api m = api.message? m.outputTypeId := by
  unfold result?
  rw [h.immediate]

theorem getField?_eq_some_iff :
    getField? api m (m.flags api) = some name ↔
      ∃ request subject resource field,
        Gets api m request subject resource field ∧ field.name = name := by
  simp only [getField?, Option.bind_eq_bind, Option.bind_eq_some_iff, Option.guard_eq_some',
    Option.pure_def, Option.some.injEq, Bool.and_eq_true, Bool.not_eq_true', Method.flags_isSimple,
    returnsEmpty_eq_false_iff, subject?_eq_some_iff, singularMatches_iff, resourceField?_eq_some_iff]
  constructor
  · rintro ⟨-, ⟨simple, answers⟩, request, input, subject, named, response, output, resource, carries,
      -, singular, field, preferred, rfl⟩
    rw [result?_of_isSimple simple] at output
    exact ⟨request, subject, resource, field,
      ⟨input, simple, answers, named, ⟨response, output, carries⟩, singular, preferred⟩, rfl⟩
  · rintro ⟨request, subject, resource, field, h, rfl⟩
    obtain ⟨response, output, carries⟩ := h.carried
    rw [← result?_of_isSimple h.simple] at output
    exact ⟨(), ⟨h.simple, h.answers⟩, request, h.input, subject, h.named, response, output, resource,
      carries, (), h.singular, field, h.preferred, rfl⟩

theorem nameField?_eq_some_iff :
    nameField? verb api m (m.flags api) = some name ↔
      ∃ request subject field, Removes verb api m request subject field ∧ field.name = name := by
  simp only [nameField?, Option.bind_eq_bind, Option.bind_eq_some_iff, Option.guard_eq_some',
    Option.pure_def, Option.some.injEq, Bool.or_eq_true, Method.flags_isSimple, Method.flags_isLro,
    subject?_eq_some_iff, namedFirst?_eq_some_iff (refersToSingular_iff api _) "name"]
  constructor
  · rintro ⟨-, soon, request, input, subject, named, field, preferred, rfl⟩
    exact ⟨request, subject, field, ⟨input, soon, named, preferred⟩, rfl⟩
  · rintro ⟨request, subject, field, h, rfl⟩
    exact ⟨(), h.soon, request, h.input, subject, h.named, field, h.preferred, rfl⟩

/-- **Get, delete and undelete methods are recognised by their shape**, and what is recorded is the name of
the field that the request names the resource by. -/
theorem classify_referring (api : Api) (m : Method) (name : String) :
    ((m.classify api).standard.get = some name ↔
        ∃ request subject resource field,
          Gets api m request subject resource field ∧ field.name = name) ∧
      ((m.classify api).standard.delete = some name ↔
        ∃ request subject field,
          Removes "delete" api m request subject field ∧ field.name = name) ∧
      ((m.classify api).standard.undelete = some name ↔
        ∃ request subject field,
          Removes "undelete" api m request subject field ∧ field.name = name) :=
  ⟨getField?_eq_some_iff, nameField?_eq_some_iff, nameField?_eq_some_iff⟩

end Standard

end ApiModel
