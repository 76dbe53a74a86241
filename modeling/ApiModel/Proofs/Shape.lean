import ApiModel.Proofs.Declared

/-!
# What traits go by

The traits of a method go by the shape of the model: by what is declared and by the pages that were
found.  Links, samples, targets, documentation and the traits themselves do not count.

Principal result: `classify_congr` — **methods of one shape have the same traits** in models of one
shape.
-/

namespace ApiModel

/-- The message as it is declared, with its pages. -/
def Message.shape (m : Message) : Message := { m.bare with pagination := m.pagination }

/-- The method as it is declared, with its pages. -/
def Method.shape (m : Method) : Method := { m.bare with pagination := m.pagination }

/-- The part of a model that traits go by. -/
def Api.shape (api : Api) : Api :=
  { registry :=
      { messages := api.registry.messages.map fun _ => Message.shape
        resources := api.registry.resources } }

theorem Message.shape_eq_of_bare {m n : Message} (h : n.bare = m.bare)
    (hpages : n.pagination = m.pagination) : n.shape = m.shape := by
  unfold shape
  rw [h, hpages]

theorem Method.shape_eq_of_bare {m n : Method} (h : n.bare = m.bare)
    (hpages : n.pagination = m.pagination) : n.shape = m.shape := by
  unfold shape
  rw [h, hpages]

/-- Messages of the same shapes and the same resources make up the same shape. -/
theorem Api.shape_eq {api other : Api}
    (hmessages : ∀ id, (other.message? id).map Message.shape = (api.message? id).map Message.shape)
    (hresources : other.registry.resources = api.registry.resources) :
    other.shape = api.shape := by
  have h : (other.registry.messages.map fun _ => Message.shape) =
      api.registry.messages.map fun _ => Message.shape := by
    apply IdMap.ext
    intro id
    rw [IdMap.get?_map, IdMap.get?_map]
    exact hmessages id
  unfold shape
  rw [h, hresources]

namespace Standard

variable {api : Api} {m : Method} {t : Traits} {input : Message}

theorem message?_shape (api : Api) (id : String) :
    api.shape.message? id = (api.message? id).map Message.shape :=
  IdMap.get?_map _ _ _

/-! ## Fields -/

theorem find?_shape (input : Message) {p : Field → Bool} (h : ∀ f, p f.bare = p f) :
    input.shape.fields.find? p = (input.fields.find? p).map Field.bare := by
  have hp : p ∘ Field.bare = p := funext h
  show (input.fields.map Field.bare).find? p = _
  rw [List.find?_map, hp]

theorem namedFirst?_shape (input : Message) (name : String) {p : Field → Bool}
    (h : ∀ f, p f.bare = p f) :
    namedFirst? name p input.shape.fields = (namedFirst? name p input.fields).map Field.bare := by
  have hp : p ∘ Field.bare = p := funext h
  have hnamed : ((input.fields.map Field.bare).filter p).find? (·.name == name) =
      ((input.fields.filter p).find? (·.name == name)).map Field.bare := by
    rw [List.filter_map, List.find?_map, hp]
    rfl
  unfold namedFirst?
  rw [find?_shape input h, Option.map_or, ← hnamed]
  rfl

theorem field?_shape (input : Message) (name : String) :
    input.shape.field? name = (input.field? name).map Field.bare :=
  find?_shape input fun _ => rfl

theorem resourceField?_shape (input : Message) (kind : String) :
    resourceField? input.shape kind = (resourceField? input kind).map Field.bare := by
  unfold resourceField?
  rw [namedFirst?_shape input "name" fun _ => rfl, find?_shape input fun _ => rfl, Option.map_or]

theorem parentField?_shape (input : Message) (kind : String) :
    parentField? input.shape kind = (parentField? input kind).map Field.bare := by
  unfold parentField?
  rw [find?_shape input fun _ => rfl, field?_shape, Option.map_or]

theorem bodyField?_shape (input : Message) (m : Method) (resourceId : String) :
    bodyField? input.shape m.shape resourceId = (bodyField? input m resourceId).map Field.bare := by
  have hbody : (m.shape.pathInfo.body.bind input.shape.field?) =
      (m.pathInfo.body.bind input.field?).map Field.bare := by
    show m.pathInfo.body.bind input.shape.field? = _
    rw [Option.map_bind]
    exact congrArg _ (funext fun name => field?_shape input name)
  unfold bodyField?
  rw [find?_shape input fun _ => rfl, hbody, Option.map_or]

/-! ## Kinds -/

theorem result?_shape (api : Api) (m : Method) :
    result? api.shape m.shape = (result? api m).map Message.shape := by
  unfold result?
  rw [show m.shape.operation = m.operation.map ({ · with methodId := none }) from rfl]
  cases m.operation with
  | none => exact message?_shape api m.outputTypeId
  | some info => exact message?_shape api info.responseTypeId

/-- A field by its name alone. -/
theorem bind_name (x : Option Field) {β : Type} (k : String → Option β) :
    ((x.map Field.bare).bind fun f => k f.name) = x.bind fun f => k f.name := by
  cases x <;> rfl

/-- What is looked up and then used by its shape. -/
theorem bind_shape {β : Type} (x : Option Message) {k k' : Message → Option β}
    (h : ∀ m, k m.shape = k' m) : (x.map Message.shape).bind k = x.bind k' := by
  cases x with
  | none => rfl
  | some m => exact h m

theorem getField?_shape (api : Api) (m : Method) (t : Traits) :
    getField? api.shape m.shape t = getField? api m t := by
  unfold getField?
  refine bind_congr fun _ => ?_
  rw [show m.shape.inputTypeId = m.inputTypeId from rfl, message?_shape, result?_shape]
  refine bind_shape _ fun input => ?_
  refine bind_congr fun subject => ?_
  refine bind_shape _ fun output => ?_
  refine bind_congr fun resource => ?_
  refine bind_congr fun _ => ?_
  rw [resourceField?_shape]
  exact bind_name _ some

theorem nameField?_shape (verb : String) (api : Api) (m : Method) (t : Traits) :
    nameField? verb api.shape m.shape t = nameField? verb api m t := by
  unfold nameField?
  refine bind_congr fun _ => ?_
  rw [show m.shape.inputTypeId = m.inputTypeId from rfl, message?_shape]
  refine bind_shape _ fun input => ?_
  refine bind_congr fun subject => ?_
  -- the resources, which the test on the fields reads, are in the shape as they are
  rw [show refersToSingular api.shape subject = refersToSingular api subject from rfl,
    namedFirst?_shape input "name" fun _ => rfl]
  exact bind_name _ some

theorem createFields?_shape (api : Api) (m : Method) (t : Traits) :
    createFields? api.shape m.shape t = createFields? api m t := by
  unfold createFields?
  refine bind_congr fun _ => ?_
  rw [show m.shape.inputTypeId = m.inputTypeId from rfl, message?_shape, result?_shape]
  refine bind_shape _ fun input => ?_
  refine bind_congr fun subject => ?_
  refine bind_shape _ fun output => ?_
  refine bind_congr fun resource => ?_
  have hid : ∀ x : Option Field, ((x.map Field.bare).filter (·.isString)).map (·.name) =
      (x.filter (·.isString)).map (·.name) := by
    intro x
    cases x with
    | none => rfl
    | some f => cases hstring : f.isString <;> simp [Field.bare, Field.isString, Option.filter] at *
  rw [parentField?_shape, show output.shape.id = output.id from rfl, bodyField?_shape,
    field?_shape]
  dsimp only
  rw [hid]
  cases parentField? input resource.kind with
  | none => rfl
  | some parent => exact bind_name (bodyField? input m output.id) fun body => some _

theorem updateFields?_shape (api : Api) (m : Method) (t : Traits) :
    updateFields? api.shape m.shape t = updateFields? api m t := by
  unfold updateFields?
  refine bind_congr fun _ => ?_
  rw [show m.shape.inputTypeId = m.inputTypeId from rfl, message?_shape, result?_shape]
  refine bind_shape _ fun input => ?_
  refine bind_congr fun _ => ?_
  refine bind_shape _ fun output => ?_
  refine bind_congr fun _ => ?_
  rw [show output.shape.id = output.id from rfl, bodyField?_shape,
    namedFirst?_shape input "update_mask" fun _ => rfl]
  cases bodyField? input m output.id with
  | none => rfl
  | some body => exact bind_name (namedFirst? "update_mask" isFieldMask input.fields) fun _ => some _

theorem listField?_shape (api : Api) (m : Method) (t : Traits) :
    listField? api.shape m.shape t = listField? api m t := by
  unfold listField?
  refine bind_congr fun _ => ?_
  rw [show m.shape.inputTypeId = m.inputTypeId from rfl,
    show m.shape.outputTypeId = m.outputTypeId from rfl, message?_shape, message?_shape]
  refine bind_shape _ fun input => ?_
  refine bind_shape _ fun output => ?_
  refine bind_congr fun subject => ?_
  refine bind_congr fun _ => ?_
  refine bind_congr fun info => ?_
  rw [field?_shape]
  cases output.field? info.pageableItem with
  | none => rfl
  | some item =>
    show (api.shape.message? item.typeId).bind _ = (api.message? item.typeId).bind _
    rw [message?_shape]
    refine bind_shape _ fun itemMessage => ?_
    refine bind_congr fun resource => ?_
    rw [parentField?_shape]
    exact bind_name _ some

end Standard

/-! ## All traits -/

theorem Method.flags_shape (api : Api) (m : Method) : m.shape.flags api.shape = m.flags api := by
  have hlist : ((api.message? m.outputTypeId).map Message.shape).any (·.pagination.isSome) =
      (api.message? m.outputTypeId).any (·.pagination.isSome) := by
    cases api.message? m.outputTypeId <;> rfl
  have hoperation : (m.shape.operation.isNone = m.operation.isNone) ∧
      (m.shape.operation.isSome = m.operation.isSome) := by
    simp [shape, bare]
  unfold flags
  rw [Standard.message?_shape, hoperation.1, hoperation.2]
  rw [show m.shape.outputTypeId = m.outputTypeId from rfl, hlist]
  rfl

theorem Method.classify_shape (api : Api) (m : Method) :
    m.shape.classify api.shape = m.classify api := by
  unfold classify
  simp only [flags_shape, Standard.getField?_shape, Standard.nameField?_shape,
    Standard.createFields?_shape, Standard.updateFields?_shape, Standard.listField?_shape]

/-- **Methods of one shape have the same traits** in models of one shape. -/
theorem Method.classify_congr {api other : Api} {m n : Method} (hmethod : n.shape = m.shape)
    (hapi : other.shape = api.shape) : n.classify other = m.classify api := by
  rw [← classify_shape other, hmethod, hapi, classify_shape]

end ApiModel
