import ApiModel.Proofs.Standard.Referring

/-!
# Methods whose request carries a resource

A create or update method answers with a resource, at once or in the end of an operation, and its request has
a field for the resource itself.  A create request names the parent besides, and it may name the new
resource; an update request has a field mask.

Principal results:

* `result?_eq_some_iff` — the message that a method returns in the end;
* `createFields?_eq_some_iff`, `updateFields?_eq_some_iff` — each kind is recognised by its shape;
* `classify_carrying` — **a method is recorded as a create or update method if and only if it has the
  shape**, with the fields of its request that play the parts.
-/

namespace ApiModel

/-! ## Shapes -/

/-- The method returns the message: as its response, or in the end of its operation. -/
inductive Api.Returns (api : Api) (m : Method) (content : Message) : Prop where
  | atOnce (immediate : m.operation = none) (found : api.message? m.outputTypeId = some content)
  | inTheEnd {info : OperationInfo} (operation : m.operation = some info)
      (found : api.message? info.responseTypeId = some content)

namespace Standard

open Pagination (IsFirst find?_eq_some_iff_isFirst)

variable {api : Api} {m : Method} {request : Message} {subject : List Char}

/-- The request has a text field under the name of the subject's ID. -/
def HasIdField (request : Message) (subject : List Char) (name : String) : Prop :=
  ∃ f, IsFirst (fun g => g.name = Naming.snakeCase (String.ofList subject) ++ "_id") request.fields f ∧
    f.kind = .string ∧ f.name = name

/-- A method that returns a resource and whose request carries one. -/
structure Writes (verb : String) (api : Api) (m : Method) (request : Message)
    (subject : List Char) (content : Message) (resource : Resource) (body : Field) : Prop where
  input : api.message? m.inputTypeId = some request
  soon : m.IsSimple ∨ m.IsLongRunning
  answers : m.outputTypeId ≠ emptyMessageId
  named : NamedAfter verb m request subject
  returns : api.Returns m content
  carries : content.resource = some resource
  isBody : Preferred request.fields
    [fun f => f.HoldsMessage content.id, fun f => m.pathInfo.body = some f.name] body

/-- A create method, with the fields that play its parts. -/
structure Creates (api : Api) (m : Method) (request : Message) (subject : List Char)
    (content : Message) (resource : Resource) (parent body : Field) (recorded : CreateFields) :
    Prop where
  writes : Writes "create" api m request subject content resource body
  isParent : Preferred request.fields
    [fun f => f.RefersToParentOf resource.kind, fun f => f.name = "parent"] parent
  parentName : recorded.parent = parent.name
  resourceName : recorded.resource = body.name
  resourceId : ∀ name, recorded.resourceId = some name ↔ HasIdField request subject name

/-- An update method, with the fields that play its parts. -/
structure Updates (api : Api) (m : Method) (request : Message) (subject : List Char)
    (content : Message) (resource : Resource) (body mask : Field) (recorded : UpdateFields) :
    Prop where
  writes : Writes "update" api m request subject content resource body
  isMask : Preferred request.fields
    [fun f => f.name = "update_mask" ∧ f.HoldsMessage fieldMaskId,
      fun f => f.HoldsMessage fieldMaskId] mask
  resourceName : recorded.resource = body.name
  maskName : recorded.updateMask = mask.name

/-! ## Recognition -/

theorem result?_eq_some_iff {content : Message} :
    result? api m = some content ↔ api.Returns m content := by
  unfold result?
  constructor
  · intro h
    split at h
    · rename_i info hoperation
      exact .inTheEnd hoperation h
    · rename_i hoperation
      exact .atOnce hoperation h
  · intro h
    cases h with
    | atOnce immediate found => rw [immediate]; exact found
    | inTheEnd operation found => rw [operation]; exact found

theorem idField?_eq_some_iff {name : String} :
    ((request.field? (Naming.snakeCase (String.ofList subject) ++ "_id")).filter (·.isString)).map
        (·.name) = some name ↔ HasIdField request subject name := by
  unfold Message.field? HasIdField
  simp only [Option.map_eq_some_iff, Option.filter_eq_some_iff, Field.isString, beq_iff_eq,
    find?_eq_some_iff_isFirst (name_iff _), and_assoc]

theorem createFields?_eq_some_iff {recorded : CreateFields} :
    createFields? api m (m.flags api) = some recorded ↔
      ∃ request subject content resource parent body,
        Creates api m request subject content resource parent body recorded := by
  simp only [createFields?, Option.bind_eq_bind, Option.bind_eq_some_iff, Option.guard_eq_some',
    Option.pure_def, Option.some.injEq, Bool.and_eq_true, Bool.or_eq_true, Bool.not_eq_true',
    Method.flags_isSimple, Method.flags_isLro, returnsEmpty_eq_false_iff, subject?_eq_some_iff,
    result?_eq_some_iff, parentField?_eq_some_iff, bodyField?_eq_some_iff]
  constructor
  · rintro ⟨-, ⟨soon, answers⟩, request, input, subject, named, content, returns, resource, carries,
      parent, hparent, body, hbody, rfl⟩
    exact ⟨request, subject, content, resource, parent, body,
      ⟨input, soon, answers, named, returns, carries, hbody⟩, hparent, rfl, rfl,
      fun _ => idField?_eq_some_iff⟩
  · rintro ⟨request, subject, content, resource, parent, body, h⟩
    refine ⟨(), ⟨h.writes.soon, h.writes.answers⟩, request, h.writes.input, subject, h.writes.named,
      content, h.writes.returns, resource, h.writes.carries, parent, h.isParent, body, h.writes.isBody, ?_⟩
    obtain ⟨recordedParent, recordedId, recordedResource⟩ := recorded
    obtain rfl : recordedParent = parent.name := h.parentName
    obtain rfl : recordedResource = body.name := h.resourceName
    congr 1
    exact Option.ext fun name => idField?_eq_some_iff.trans (h.resourceId name).symm

theorem updateFields?_eq_some_iff {recorded : UpdateFields} :
    updateFields? api m (m.flags api) = some recorded ↔
      ∃ request subject content resource body mask,
        Updates api m request subject content resource body mask recorded := by
  simp only [updateFields?, Option.bind_eq_bind, Option.bind_eq_some_iff, Option.guard_eq_some',
    Option.pure_def, Option.some.injEq, Bool.and_eq_true, Bool.or_eq_true, Bool.not_eq_true',
    Method.flags_isSimple, Method.flags_isLro, returnsEmpty_eq_false_iff, subject?_eq_some_iff,
    result?_eq_some_iff, bodyField?_eq_some_iff, namedFirst?_eq_some_iff isFieldMask_iff "update_mask"]
  constructor
  · rintro ⟨-, ⟨soon, answers⟩, request, input, subject, named, content, returns, resource, carries,
      body, hbody, mask, hmask, rfl⟩
    exact ⟨request, subject, content, resource, body, mask,
      ⟨input, soon, answers, named, returns, carries, hbody⟩, hmask, rfl, rfl⟩
  · rintro ⟨request, subject, content, resource, body, mask, h⟩
    refine ⟨(), ⟨h.writes.soon, h.writes.answers⟩, request, h.writes.input, subject, h.writes.named,
      content, h.writes.returns, resource, h.writes.carries, body, h.writes.isBody, mask, h.isMask, ?_⟩
    rw [← h.resourceName, ← h.maskName]

/-- **Create and update methods are recognised by their shape**, and what is recorded are the names of the
request fields that play the parts. -/
theorem classify_carrying (api : Api) (m : Method) :
    (∀ recorded, (m.classify api).standard.create = some recorded ↔
        ∃ request subject content resource parent body,
          Creates api m request subject content resource parent body recorded) ∧
      ∀ recorded, (m.classify api).standard.update = some recorded ↔
        ∃ request subject content resource body mask,
          Updates api m request subject content resource body mask recorded :=
  ⟨fun _ => createFields?_eq_some_iff, fun _ => updateFields?_eq_some_iff⟩

end Standard

end ApiModel
