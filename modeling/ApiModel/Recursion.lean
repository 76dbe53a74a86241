import ApiModel.Model.Api

/-!
# Recursive fields

A message field is recursive when its type contains the field's own message, directly or through
other messages.  `Api.search` goes through what a type refers to, depth first, and stops where it finds the
message; no type is expanded twice, so it ends however the messages refer to each other.
-/

namespace ApiModel

namespace Api

/-- The types of a message's message fields; an ID that is not registered leads nowhere. -/
def referred (api : Api) (id : String) : List String :=
  match api.message? id with
  | some m => (m.fields.filter (·.isMessage)).map (·.typeId)
  | none => []

/-- The registered messages that are not yet visited. -/
def unvisited (api : Api) (visited : List String) : List String :=
  api.registry.messages.keys.filter fun id => !visited.contains id

theorem length_unvisited_lt {api : Api} {visited : List String} {id : String}
    (hreg : api.registry.messages.contains id = true) (hnew : visited.contains id = false) :
    (api.unvisited (id :: visited)).length < (api.unvisited visited).length := by
  have hmem : id ∈ api.unvisited visited := by
    rw [unvisited, List.mem_filter]
    exact ⟨IdMap.mem_keys_iff.2 hreg, by simpa using hnew⟩
  have hsub : api.unvisited (id :: visited) = (api.unvisited visited).filter (· != id) := by
    simp only [unvisited, List.filter_filter]
    congr 1
    funext x
    by_cases hx : x = id <;> simp [hx]
  rw [hsub]
  refine Nat.lt_of_le_of_ne (List.length_filter_le _ _) fun h => ?_
  simpa using List.length_filter_eq_length_iff.1 h id hmem

theorem unvisited_cons_of_not_contains {api : Api} {visited : List String} {id : String}
    (hunreg : ¬ api.registry.messages.contains id = true) :
    api.unvisited (id :: visited) = api.unvisited visited := by
  refine List.filter_congr fun x hx => ?_
  have hne : x ≠ id := by
    rintro rfl
    exact hunreg (IdMap.mem_keys_iff.1 hx)
  simp [hne]

theorem referred_of_not_contains {api : Api} {id : String}
    (hunreg : ¬ api.registry.messages.contains id = true) : api.referred id = [] := by
  have hnone : api.message? id = none := Option.not_isSome_iff_eq_none.1 hunreg
  simp only [referred, hnone]

/-- One of the pending types contains the target, directly or not.  What is `visited` was expanded before. -/
def search (api : Api) (target : String) (visited : List String) : List String → Bool
  | [] => false
  | id :: pending =>
    if id == target then true
    else if _hold : visited.contains id = true then search api target visited pending
    else search api target (id :: visited) (api.referred id ++ pending)
termination_by pending => ((api.unvisited visited).length, pending.length)
decreasing_by
  · exact Prod.Lex.right _ (by simp)
  · by_cases hreg : api.registry.messages.contains id = true
    · exact Prod.Lex.left _ _ (length_unvisited_lt hreg (by simpa using _hold))
    · rw [unvisited_cons_of_not_contains hreg, referred_of_not_contains hreg]
      exact Prod.Lex.right _ (by simp)

/-- A type contains a message, directly or not. -/
def leadsTo (api : Api) (typeId target : String) : Bool := api.search target [] [typeId]

/-- The IDs of the recursive fields, by message ID and then in order. -/
def recursiveFieldIds (api : Api) : List String :=
  api.registry.messages.values.flatMap fun m =>
    (m.fields.filter fun f => f.isMessage && api.leadsTo f.typeId m.id).map (·.id)

/-- Labels every field as recursive or not. -/
def labelRecursive (api : Api) : Api :=
  let ids := api.recursiveFieldIds
  { api with registry.messages := api.registry.messages.map fun _ m =>
      { m with fields := m.fields.map fun f => { f with recursive := ids.contains f.id } } }

end Api

end ApiModel
