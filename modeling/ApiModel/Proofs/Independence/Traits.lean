import ApiModel.Proofs.Independence.Types

/-!
# What the traits of a method see

A method is classified by its own surface, by the types, and by the pages of its own response; the pages
of other messages are no matter.

Principal results:

* `classify_blurred` — **the pages of other messages do not change the traits of a method**;
* `blurred_congr` — models with the same types and the same pages where they are seen look alike.
-/

namespace ApiModel

/-- The message with its pages only where they are seen. -/
def Message.blurred (seen : String → Bool) (id : String) (m : Message) : Message :=
  { m.plain with pagination := if seen id then m.pagination else none }

/-- The part of a model that traits go by, with pages only where they are seen. -/
def Api.blurred (seen : String → Bool) (api : Api) : Api :=
  { registry :=
      { messages := api.registry.messages.map (Message.blurred seen)
        resources := api.registry.resources } }

namespace Standard

variable {seen : String → Bool} {api : Api} {m : Method} {β : Type}

theorem message?_blurred (api : Api) (id : String) :
    (api.blurred seen).message? id = (api.message? id).map (Message.blurred seen id) :=
  IdMap.get?_map _ _ _

/-- A message that is looked up and then used apart from its pages. -/
theorem bind_blurred {k k' : Message → Option β} (id : String)
    (h : ∀ x : Message, k (x.blurred seen id) = k' x) :
    ((api.blurred seen).message? id).bind k = (api.message? id).bind k' := by
  rw [message?_blurred]
  cases api.message? id with
  | none => rfl
  | some x => exact h x

theorem bind_result?_blurred {k k' : Message → Option β}
    (h : ∀ id (x : Message), k (x.blurred seen id) = k' x) :
    (result? (api.blurred seen) m).bind k = (result? api m).bind k' := by
  unfold result?
  cases m.operation with
  | none => exact bind_blurred _ (h _)
  | some info => exact bind_blurred _ (h _)

theorem getField?_blurred (api : Api) (m : Method) (t : Traits) :
    getField? (api.blurred seen) m t = getField? api m t := by
  unfold getField?
  refine bind_congr fun _ => bind_blurred _ fun input => bind_congr fun subject => ?_
  exact bind_result?_blurred fun _ _ => rfl

theorem nameField?_blurred (verb : String) (api : Api) (m : Method) (t : Traits) :
    nameField? verb (api.blurred seen) m t = nameField? verb api m t := by
  unfold nameField?
  exact bind_congr fun _ => bind_blurred _ fun _ => rfl

theorem createFields?_blurred (api : Api) (m : Method) (t : Traits) :
    createFields? (api.blurred seen) m t = createFields? api m t := by
  unfold createFields?
  refine bind_congr fun _ => bind_blurred _ fun input => bind_congr fun subject => ?_
  exact bind_result?_blurred fun _ _ => rfl

theorem updateFields?_blurred (api : Api) (m : Method) (t : Traits) :
    updateFields? (api.blurred seen) m t = updateFields? api m t := by
  unfold updateFields?
  refine bind_congr fun _ => bind_blurred _ fun input => bind_congr fun subject => ?_
  exact bind_result?_blurred fun _ _ => rfl

/-- Of all pages a list method needs those of its response. -/
theorem listField?_blurred (api : Api) (t : Traits) (h : seen m.outputTypeId = true) :
    listField? (api.blurred seen) m t = listField? api m t := by
  have hpages : ∀ output : Message,
      (output.blurred seen m.outputTypeId).pagination = output.pagination := fun _ => if_pos h
  unfold listField?
  refine bind_congr fun _ => bind_blurred _ fun input => bind_blurred _ fun output => ?_
  refine bind_congr fun subject => bind_congr fun _ => ?_
  rw [hpages]
  refine bind_congr fun info => bind_congr fun item => ?_
  exact bind_blurred _ fun _ => rfl

end Standard

/-- **The pages of other messages do not change the traits of a method.** -/
theorem Method.classify_blurred {seen : String → Bool} {m : Method} (api : Api)
    (h : seen m.outputTypeId = true) : m.classify (api.blurred seen) = m.classify api := by
  have hflags : m.flags (api.blurred seen) = m.flags api := by
    unfold flags
    rw [Standard.message?_blurred]
    cases api.message? m.outputTypeId with
    | none => rfl
    | some output =>
      have hpages : (output.blurred seen m.outputTypeId).pagination = output.pagination := if_pos h
      simp only [Option.map_some, Option.any_some, hpages]
  unfold classify
  simp only [hflags, Standard.getField?_blurred, Standard.nameField?_blurred,
    Standard.createFields?_blurred, Standard.updateFields?_blurred, Standard.listField?_blurred api _ h]

/-- The traits of a method go by what cross-referencing leaves alone. -/
theorem Method.shape_unlinked (m : Method) : m.unlinked.shape = m.shape := by
  simp only [shape, bare, unlinked, Option.map_map]
  rfl

namespace Api

variable {seen : String → Bool} {api other : Api}

/-- The messages with the pages that are seen. -/
theorem messages_blurred_congr (htypes : other.types = api.types)
    (hpages : ∀ id, seen id = true → other.pages.get? id = api.pages.get? id) :
    other.registry.messages.map (Message.blurred seen) =
      api.registry.messages.map (Message.blurred seen) := by
  refine IdMap.map_eq_of_map_eq (congrArg (·.messages) htypes) ?_
  intro id m n hm hn hplain
  unfold Message.blurred
  rw [hplain]
  split
  · rename_i hid
    have hseen := hpages id hid
    simp only [pages, IdMap.get?_map, hm, hn, Option.map_some, Option.some.injEq] at hseen
    rw [hseen]
  · rfl

/-- Models with the same types, the same resources and the same pages where they are seen look alike. -/
theorem blurred_congr (htypes : other.types = api.types)
    (hpages : ∀ id, seen id = true → other.pages.get? id = api.pages.get? id)
    (hresources : other.registry.resources = api.registry.resources) :
    other.blurred seen = api.blurred seen := by
  unfold blurred
  rw [messages_blurred_congr htypes hpages, hresources]

end Api

end ApiModel
