import Mathlib
import ApiModel.Proofs.Scan
import ApiModel.Proofs.Standard.Subject

/-!
# Traits and letter case

The names of methods and messages and the singulars of resources are compared without regard to the case
of ASCII letters.  `caseless` writes all of them in lower case; IDs, resource types and field names stay as
they are.

The one thing that goes by capitals is the field that a create request names the new resource by: it is
called after the words of the method's subject, and a capital is where a word begins.

Principal results:

* `subject?_caseless`, `refersToSingular_caseless` — subjects and singulars without regard to case;
* `getField?_caseless`, `nameField?_caseless`, `createFields?_caseless`, `updateFields?_caseless`,
  `listField?_caseless` — each kind is recognised whatever the case;
* `classify_recased` — **methods that differ in letter case have the same traits** in models that differ in
  letter case, up to the field that names a new resource.
-/

namespace ApiModel

open ApiModel.Text

/-! ## Lower case -/

namespace Text

/-- The text with its ASCII letters in lower case. -/
def lowered (s : String) : String := String.ofList (foldCase s.toList)

@[simp]
theorem foldCase_foldCase (s : List Char) : foldCase (foldCase s) = foldCase s := by
  simp [foldCase]

@[simp]
theorem toList_lowered (s : String) : (lowered s).toList = foldCase s.toList := String.toList_ofList

@[simp]
theorem isEmpty_lowered (s : String) : (lowered s).isEmpty = s.isEmpty := by
  rw [Bool.eq_iff_iff, String.isEmpty_iff, String.isEmpty_iff, ← String.toList_eq_nil_iff,
    ← String.toList_eq_nil_iff, toList_lowered]
  exact List.map_eq_nil_iff

@[simp]
theorem sameLetters_foldCase_left (a b : List Char) :
    sameLetters (foldCase a) b = sameLetters a b := by
  simp [sameLetters]

@[simp]
theorem sameLetters_foldCase_right (a b : List Char) :
    sameLetters a (foldCase b) = sameLetters a b := by
  simp [sameLetters]

end Text

/-- The resource with its singular in lower case. -/
def Resource.caseless (r : Resource) : Resource := { r with singular := lowered r.singular }

/-- The message with its name in lower case, and its resource so too. -/
def Message.caseless (m : Message) : Message :=
  { m with name := lowered m.name, resource := m.resource.map Resource.caseless }

/-- The method with its name in lower case. -/
def Method.caseless (m : Method) : Method := { m with name := lowered m.name }

/-- The part of a model that traits go by, its messages and resources, in lower case. -/
def Api.caseless (api : Api) : Api :=
  { registry :=
      { messages := api.registry.messages.map fun _ => Message.caseless
        resources := api.registry.resources.map fun _ => Resource.caseless } }

section Parts

variable (m : Message) (n : Method)

@[simp] theorem Message.name_caseless : m.caseless.name = lowered m.name := rfl

@[simp] theorem Message.id_caseless : m.caseless.id = m.id := rfl

@[simp] theorem Message.fields_caseless : m.caseless.fields = m.fields := rfl

@[simp] theorem Message.pagination_caseless : m.caseless.pagination = m.pagination := rfl

@[simp] theorem Message.resource_caseless :
    m.caseless.resource = m.resource.map Resource.caseless := rfl

@[simp] theorem Message.field?_caseless : m.caseless.field? = m.field? := rfl

@[simp] theorem Resource.kind_caseless (r : Resource) : r.caseless.kind = r.kind := rfl

@[simp] theorem Method.name_caseless : n.caseless.name = lowered n.name := rfl

@[simp] theorem Method.inputTypeId_caseless : n.caseless.inputTypeId = n.inputTypeId := rfl

@[simp] theorem Method.outputTypeId_caseless : n.caseless.outputTypeId = n.outputTypeId := rfl

@[simp] theorem Method.operation_caseless : n.caseless.operation = n.operation := rfl

@[simp] theorem Method.returnsEmpty_caseless : n.caseless.returnsEmpty = n.returnsEmpty := rfl

end Parts

/-- The traits without the field that a create request names the new resource by. -/
def Traits.withoutIdField (t : Traits) : Traits :=
  { t with standard.create := t.standard.create.map ({ · with resourceId := none }) }

theorem Api.message?_caseless (api : Api) (id : String) :
    api.caseless.message? id = (api.message? id).map Message.caseless :=
  IdMap.get?_map _ _ _

theorem Api.resource?_caseless (api : Api) (kind : String) :
    api.caseless.resource? kind = (api.resource? kind).map Resource.caseless :=
  IdMap.get?_map _ _ _

namespace Standard

/-! ## Subjects and singulars -/

theorem afterVerb?_lowered (verb name : String) :
    afterVerb? verb (lowered name) = (afterVerb? verb name).map foldCase := by
  unfold afterVerb?
  rw [toList_lowered]
  have htake : (foldCase name.toList).take verb.toList.length =
      foldCase (name.toList.take verb.toList.length) := List.map_take.symm
  have hdrop : (foldCase name.toList).drop verb.toList.length =
      foldCase (name.toList.drop verb.toList.length) := List.map_drop.symm
  have hempty : ∀ s, (foldCase s).isEmpty = s.isEmpty := fun s => by cases s <;> rfl
  dsimp only
  rw [htake, hdrop, sameLetters_foldCase_left, hempty]
  split <;> rfl

theorem named_lowered (name verb suffix : String) (subject : List Char) :
    named (lowered name) verb (foldCase subject) suffix = named name verb subject suffix := by
  rw [named_congr (foldCase_foldCase subject)]
  unfold named
  rw [toList_lowered, sameLetters_foldCase_left]

/-- The subject in lower case is the subject of the names in lower case. -/
theorem subject?_caseless (verb : String) (m : Method) (request : Message) :
    subject? verb m.caseless request.caseless = (subject? verb m request).map foldCase := by
  unfold subject?
  rw [Method.name_caseless, Message.name_caseless, afterVerb?_lowered, Option.bind_eq_bind,
    Option.bind_map, Option.map_bind]
  refine congrArg _ (funext fun rest => ?_)
  simp only [Function.comp_apply, named_lowered]
  split <;> rfl

theorem singularMatches_caseless (r : Resource) (subject : List Char) :
    singularMatches r.caseless (foldCase subject) = singularMatches r subject := by
  simp [singularMatches, Resource.caseless]

/-- A singular is the registered one or the name of the type, and the type's letters stay. -/
theorem sameLetters_singularOf_caseless (api : Api) (kind : String) (subject : List Char) :
    sameLetters (singularOf api.caseless kind).toList subject =
      sameLetters (singularOf api kind).toList subject := by
  unfold singularOf
  rw [Api.resource?_caseless]
  cases api.resource? kind with
  | none => rfl
  | some r =>
    simp only [Option.map_some, Resource.caseless, isEmpty_lowered]
    split
    · rfl
    · rw [toList_lowered, sameLetters_foldCase_left]

theorem refersToSingular_caseless (api : Api) (subject : List Char) :
    refersToSingular api.caseless (foldCase subject) = refersToSingular api subject := by
  funext f
  unfold refersToSingular
  simp only [sameLetters_foldCase_right, sameLetters_singularOf_caseless]

/-! ## Kinds -/

variable (api : Api) (m : Method) (t : Traits)

theorem result?_caseless :
    result? api.caseless m.caseless = (result? api m).map Message.caseless := by
  unfold result?
  rw [show m.caseless.operation = m.operation from rfl]
  cases m.operation with
  | none => exact api.message?_caseless m.outputTypeId
  | some info => exact api.message?_caseless info.responseTypeId

theorem resourceField?_caseless (request : Message) :
    resourceField? request.caseless = resourceField? request := rfl

theorem parentField?_caseless (request : Message) :
    parentField? request.caseless = parentField? request := rfl

theorem bodyField?_caseless (request : Message) :
    bodyField? request.caseless m.caseless = bodyField? request m := rfl

theorem getField?_caseless : getField? api.caseless m.caseless t = getField? api m t := by
  simp only [getField?, Option.bind_eq_bind, Method.returnsEmpty_caseless,
    Method.inputTypeId_caseless, Api.message?_caseless, result?_caseless, subject?_caseless,
    Option.bind_map, Function.comp_def, Message.resource_caseless, singularMatches_caseless,
    Resource.kind_caseless, resourceField?_caseless]
  rfl

theorem nameField?_caseless (verb : String) :
    nameField? verb api.caseless m.caseless t = nameField? verb api m t := by
  simp only [nameField?, Option.bind_eq_bind, Method.inputTypeId_caseless, Api.message?_caseless,
    subject?_caseless, Option.bind_map, Function.comp_def, refersToSingular_caseless,
    Message.fields_caseless]

theorem createFields?_caseless :
    (createFields? api.caseless m.caseless t).map ({ · with resourceId := none }) =
      (createFields? api m t).map ({ · with resourceId := none }) := by
  simp only [createFields?, Option.bind_eq_bind, Method.returnsEmpty_caseless,
    Method.inputTypeId_caseless, Api.message?_caseless, result?_caseless, subject?_caseless,
    Option.bind_map, Function.comp_def, Message.resource_caseless, Resource.kind_caseless,
    Message.id_caseless, parentField?_caseless, bodyField?_caseless, Option.map_bind, Option.pure_def,
    Option.map_some]
  rfl

theorem updateFields?_caseless :
    updateFields? api.caseless m.caseless t = updateFields? api m t := by
  simp only [updateFields?, Option.bind_eq_bind, Method.returnsEmpty_caseless,
    Method.inputTypeId_caseless, Api.message?_caseless, result?_caseless, subject?_caseless,
    Option.bind_map, Function.comp_def, Message.resource_caseless, Message.id_caseless,
    bodyField?_caseless, Message.fields_caseless]
  rfl

theorem listField?_caseless : listField? api.caseless m.caseless t = listField? api m t := by
  simp only [listField?, Option.bind_eq_bind, Method.inputTypeId_caseless,
    Method.outputTypeId_caseless, Api.message?_caseless, subject?_caseless, Option.bind_map,
    Function.comp_def, Message.name_caseless, named_lowered, Message.pagination_caseless,
    Message.field?_caseless, Message.resource_caseless, Resource.kind_caseless,
    parentField?_caseless]

end Standard

/-! ## All traits -/

namespace Method

theorem flags_caseless (api : Api) (m : Method) : m.caseless.flags api.caseless = m.flags api := by
  unfold flags
  rw [Api.message?_caseless, Option.any_map]
  rfl

theorem classify_caseless (api : Api) (m : Method) :
    (m.caseless.classify api.caseless).withoutIdField = (m.classify api).withoutIdField := by
  have hcreate := Standard.createFields?_caseless api m (m.flags api)
  have hsome : (Standard.createFields? api.caseless m.caseless (m.flags api)).isSome =
      (Standard.createFields? api m (m.flags api)).isSome := by
    have h := congrArg Option.isSome hcreate
    rwa [Option.isSome_map, Option.isSome_map] at h
  unfold classify Traits.withoutIdField StandardFields.any
  simp only [flags_caseless, Standard.getField?_caseless, Standard.nameField?_caseless,
    Standard.updateFields?_caseless, Standard.listField?_caseless, hcreate, hsome]

/-- **Traits do not go by letter case.** Methods whose names differ in the case of letters only have the same
traits in models where only the names of messages and the singulars of resources differ so; a create
method may name the new resource by another field, or by none. -/
theorem classify_recased {api other : Api} {m n : Method} (hapi : other.caseless = api.caseless)
    (hmethod : n.caseless = m.caseless) :
    (n.classify other).withoutIdField = (m.classify api).withoutIdField := by
  rw [← classify_caseless other, hmethod, hapi, classify_caseless]

end Method

/-! ## A create method in capitals -/

/-- A keyring whose names are spelled in some way.  Versions of keys are created in it. -/
def Api.keyring (spell : String → String) : Api :=
  let version : Message :=
    { Message.new "KeyVersion" "v1" none with
      name := spell "KeyVersion"
      resource := some { kind := "keyring/KeyVersion", singular := spell "keyVersion" } }
  let request := Message.new "CreateKeyVersionRequest" "v1" none
  let request := request.addField { name := "parent", jsonName := "parent", kind := .string }
  let request := request.addField
    { name := "key_version_id", jsonName := "keyVersionId", kind := .string }
  let request := request.addField
    { name := "version", jsonName := "version", kind := .message, typeId := version.id }
  (({ name := "keyring", package := "v1" } : Api).addMessage version).addMessage
    { request with name := spell "CreateKeyVersionRequest" }

/-- The method that creates versions, spelled in some way. -/
def Method.creatingVersions (spell : String → String) : Method :=
  { Method.new (.new "Keyring" "v1") "CreateKeyVersion" ".v1.CreateKeyVersionRequest"
      ".v1.KeyVersion" with name := spell "CreateKeyVersion" }

theorem Method.classify_recased_keyring :
    (Api.keyring lowered).caseless = (Api.keyring fun s => s).caseless ∧
      (creatingVersions lowered).caseless = (creatingVersions fun s => s).caseless ∧
      ((creatingVersions lowered).classify (.keyring lowered)).withoutIdField =
        ((creatingVersions fun s => s).classify (.keyring fun s => s)).withoutIdField ∧
      ((creatingVersions fun s => s).classify (.keyring fun s => s)).standard.create =
        some ⟨"parent", some "key_version_id", "version"⟩ ∧
      ((creatingVersions lowered).classify (.keyring lowered)).standard.create =
        some ⟨"parent", none, "version"⟩ := by
  have hmessages : (Api.keyring lowered).caseless.registry.messages =
      (Api.keyring fun s => s).caseless.registry.messages :=
    IdMap.eq_of_entries (by decide +kernel)
  have hresources : (Api.keyring lowered).caseless.registry.resources =
      (Api.keyring fun s => s).caseless.registry.resources :=
    IdMap.eq_of_entries (by decide +kernel)
  have hapi : (Api.keyring lowered).caseless = (Api.keyring fun s => s).caseless :=
    congrArg₂ (fun messages resources => ({ registry := { messages, resources } } : Api))
      hmessages hresources
  have hmethod : (creatingVersions lowered).caseless = (creatingVersions fun s => s).caseless := by
    decide +kernel
  exact ⟨hapi, hmethod, classify_recased hapi hmethod, by decide +kernel, by decide +kernel⟩

end ApiModel
