import ApiModel.Proofs.Schema.Coherent

/-!
# What is nested in a message

A placed message names the message around it.  With full names that differ, those that name a message
are the ones that its descriptor nests, in the order of their declaration, however deep they lie.

Principal results:

* `topMessages_eq`, `topEnums_eq` — without a message around them are the elements of the file itself;
* `nestedMessages_eq`, `nestedEnums_eq` — with a message around them, those that it declares.
-/

namespace ApiModel

variable {ρ α : Type}

/-- A list that one element alone contributes to. -/
theorem flatMap_ite_of_nodup {β : Type} {xs : List α} {x : α} (key : α → String) (g : α → List β)
    (hnodup : (xs.map key).Nodup) (hx : x ∈ xs) :
    (xs.flatMap fun y => if key y = key x then g y else []) = g x := by
  induction xs with
  | nil => cases hx
  | cons y rest ih =>
    rw [List.map_cons, List.nodup_cons] at hnodup
    obtain ⟨hfresh, hrest⟩ := hnodup
    rw [List.flatMap_cons]
    rcases List.mem_cons.1 hx with rfl | hx
    · have hnone : (rest.flatMap fun y => if key y = key x then g y else []) = [] := by
        rw [List.flatMap_eq_nil_iff]
        intro y hy
        exact if_neg fun heq => hfresh (List.mem_map.2 ⟨y, hy, heq⟩)
      rw [if_pos rfl, hnone, List.append_nil]
    · have hne : key y ≠ key x := fun heq => hfresh (heq ▸ List.mem_map_of_mem hx)
      rw [if_neg hne, List.nil_append, ih hrest hx]

/-- The full names of the elements that lie directly in a message, or in none. -/
def namesIn (outer : Option String) (ps : List (Placed α)) : List String :=
  (ps.filter (·.outer == outer)).map (·.fullName)

section NamesIn

variable {outer : Option String} {p : Placed α} {ps qs : List (Placed α)}

theorem mem_namesIn {name : String} :
    name ∈ namesIn outer ps ↔ ∃ p ∈ ps, p.outer = outer ∧ p.fullName = name := by
  simp [namesIn, and_assoc]

theorem namesIn_append : namesIn outer (ps ++ qs) = namesIn outer ps ++ namesIn outer qs := by
  simp [namesIn]

theorem namesIn_flatMap {β : Type} (outer : Option String) (xs : List β) (g : β → List (Placed α)) :
    namesIn outer (xs.flatMap g) = xs.flatMap fun x => namesIn outer (g x) := by
  unfold namesIn
  rw [List.filter_flatMap, List.map_flatMap]

theorem namesIn_cons : namesIn outer (p :: ps) =
    if p.outer = outer then p.fullName :: namesIn outer ps else namesIn outer ps := by
  unfold namesIn
  by_cases h : p.outer = outer <;> simp [h]

theorem namesIn_eq_nil (h : ∀ p ∈ ps, p.outer ≠ outer) : namesIn outer ps = [] := by
  have hnone : ps.filter (·.outer == outer) = [] :=
    List.filter_eq_nil_iff.2 fun p hp => by simpa using h p hp
  rw [namesIn, hnone, List.map_nil]

end NamesIn

/-! ## Messages -/

mutual

/-- A message lies in the given one or in one of those placed with it. -/
theorem outer_of_mem_placed (scope : String) (outer : Option String) (path : List Int) :
    ∀ m : MessageDescriptor ρ, ∀ p ∈ m.placed scope outer path,
      p.outer = outer ∨ ∃ q ∈ m.placed scope outer path, p.outer = some q.fullName
  | ⟨name, _, _, nested, _, _, _, _, _⟩ => by
    unfold MessageDescriptor.placed
    intro p hp
    rcases List.mem_cons.1 hp with rfl | hp
    · exact .inl rfl
    · right
      rcases outer_of_mem_placedFrom _ _ _ _ nested p hp with houter | ⟨q, hq, houter⟩
      · exact ⟨_, List.mem_cons_self .., houter⟩
      · exact ⟨q, List.mem_cons_of_mem _ hq, houter⟩

theorem outer_of_mem_placedFrom (scope : String) (outer : Option String) (base : List Int) (i : Nat) :
    ∀ ms : List (MessageDescriptor ρ), ∀ p ∈ MessageDescriptor.placedFrom scope outer base i ms,
      p.outer = outer ∨
        ∃ q ∈ MessageDescriptor.placedFrom scope outer base i ms, p.outer = some q.fullName
  | [], _, hp => nomatch hp
  | m :: ms, p, hp => by
    unfold MessageDescriptor.placedFrom at hp ⊢
    rcases List.mem_append.1 hp with hp | hp
    · rcases outer_of_mem_placed _ _ _ m p hp with houter | ⟨q, hq, houter⟩
      · exact .inl houter
      · exact .inr ⟨q, List.mem_append_left _ hq, houter⟩
    · rcases outer_of_mem_placedFrom _ _ _ _ ms p hp with houter | ⟨q, hq, houter⟩
      · exact .inl houter
      · exact .inr ⟨q, List.mem_append_right _ hq, houter⟩

end

/-- In a message that is not placed here, nothing lies but what is said to. -/
theorem namesIn_placedFrom_of_ne {scope : String} {outer : Option String} {base : List Int} {i : Nat}
    {ms : List (MessageDescriptor ρ)} {o : Option String} (ho : o ≠ outer)
    (hnew : ∀ p ∈ MessageDescriptor.placedFrom scope outer base i ms, o ≠ some p.fullName) :
    namesIn o (MessageDescriptor.placedFrom scope outer base i ms) = [] := by
  refine namesIn_eq_nil fun p hp houter => ?_
  rcases outer_of_mem_placedFrom scope outer base i ms p hp with h | ⟨q, hq, h⟩
  · exact ho (houter.symm.trans h)
  · exact hnew q hq (houter.symm.trans h)

/-- A placed message and what is placed inside of it. -/
theorem placed_eq (scope : String) (outer : Option String) (path : List Int)
    (m : MessageDescriptor ρ) :
    m.placed scope outer path =
      { element := m, fullName := qualifiedName scope m.name, outer, path } ::
        MessageDescriptor.placedFrom (qualifiedName scope m.name) (some (qualifiedName scope m.name))
          (path ++ [3]) 0 m.nested := by
  obtain ⟨name, fields, extensions, nested, enums, ranges, reserved, oneofs, options⟩ := m
  unfold MessageDescriptor.placed
  rfl

/-- In the given message lie the messages of the list. -/
theorem namesIn_placedFrom {scope : String} {outer : Option String} {base : List Int} {i : Nat}
    {ms : List (MessageDescriptor ρ)}
    (hnew : ∀ p ∈ MessageDescriptor.placedFrom scope outer base i ms, outer ≠ some p.fullName) :
    namesIn outer (MessageDescriptor.placedFrom scope outer base i ms) =
      ms.map fun m => qualifiedName scope m.name := by
  induction ms generalizing i with
  | nil => rfl
  | cons m ms ih =>
    unfold MessageDescriptor.placedFrom at hnew ⊢
    rw [placed_eq] at hnew ⊢
    rw [List.cons_append, List.forall_mem_cons, List.forall_mem_append] at hnew
    obtain ⟨hself, hnested, hrest⟩ := hnew
    rw [List.cons_append, namesIn_cons, if_pos rfl, namesIn_append, ih hrest,
      namesIn_placedFrom_of_ne hself hnested, List.nil_append, List.map_cons]

mutual

/-- With full names that differ, in a placed message lie the messages that its descriptor nests. -/
theorem namesIn_placed (scope : String) (outer : Option String) (path : List Int) :
    ∀ m : MessageDescriptor ρ, ((m.placed scope outer path).map (·.fullName)).Nodup →
      (∀ p ∈ m.placed scope outer path, outer ≠ some p.fullName) →
      ∀ p ∈ m.placed scope outer path, namesIn (some p.fullName) (m.placed scope outer path) =
        p.element.nested.map fun n => qualifiedName p.fullName n.name
  | ⟨name, _, _, nested, _, _, _, _, _⟩ => by
    unfold MessageDescriptor.placed
    intro hnodup hnew p hp
    rw [List.map_cons, List.nodup_cons] at hnodup
    obtain ⟨hfresh, hnodup⟩ := hnodup
    have hinner : ∀ q ∈ MessageDescriptor.placedFrom (qualifiedName scope name)
        (some (qualifiedName scope name)) (path ++ [3]) 0 nested,
        some (qualifiedName scope name) ≠ some q.fullName := by
      intro q hq heq
      exact hfresh (List.mem_map.2 ⟨q, hq, (Option.some.inj heq).symm⟩)
    rw [namesIn_cons, if_neg (hnew p hp)]
    rcases List.mem_cons.1 hp with rfl | hp
    · exact namesIn_placedFrom hinner
    · exact namesIn_nested _ _ _ _ nested hnodup hinner p hp

theorem namesIn_nested (scope : String) (outer : Option String) (base : List Int) (i : Nat) :
    ∀ ms : List (MessageDescriptor ρ),
      ((MessageDescriptor.placedFrom scope outer base i ms).map (·.fullName)).Nodup →
      (∀ p ∈ MessageDescriptor.placedFrom scope outer base i ms, outer ≠ some p.fullName) →
      ∀ p ∈ MessageDescriptor.placedFrom scope outer base i ms,
        namesIn (some p.fullName) (MessageDescriptor.placedFrom scope outer base i ms) =
          p.element.nested.map fun n => qualifiedName p.fullName n.name
  | [], _, _, _, hp => nomatch hp
  | m :: ms, hnodup, hnew, p, hp => by
    unfold MessageDescriptor.placedFrom at hnodup hnew hp ⊢
    rw [List.map_append, List.nodup_append] at hnodup
    obtain ⟨hfirst, hrest, hapart⟩ := hnodup
    have hne := hnew p hp
    rw [List.forall_mem_append] at hnew
    rw [namesIn_append]
    rcases List.mem_append.1 hp with hp | hp
    · -- among the messages behind the first one nothing lies in `p`
      rw [namesIn_placed _ _ _ m hfirst hnew.1 p hp,
        namesIn_placedFrom_of_ne (Ne.symm hne) fun q hq heq => hapart p.fullName
          (List.mem_map_of_mem hp) q.fullName (List.mem_map_of_mem hq) (Option.some.inj heq),
        List.append_nil]
    · have hnone : namesIn (some p.fullName) (m.placed scope outer (base ++ [(i : Int)])) = [] := by
        refine namesIn_eq_nil fun q hq houter => ?_
        rcases outer_of_mem_placed _ _ _ m q hq with h | ⟨r, hr, h⟩
        · exact hne (h.symm.trans houter)
        · exact hapart r.fullName (List.mem_map_of_mem hr) p.fullName (List.mem_map_of_mem hp)
            (Option.some.inj (h.symm.trans houter))
      rw [hnone, namesIn_nested _ _ _ _ ms hrest hnew.2 p hp, List.nil_append]

end

namespace FileDescriptor

variable {f : FileDescriptor ρ}

theorem nodup_placedMessages (hnodup : f.messageNames.Nodup) :
    (f.placedMessages.map (·.fullName)).Nodup := by
  unfold messageNames at hnodup
  rwa [← placedMessages_map, List.map_map] at hnodup

/-- In no message lie the messages of the file itself. -/
theorem topMessages_eq (f : FileDescriptor ρ) :
    namesIn none f.placedMessages = f.messages.map fun m => qualifiedName f.package m.name :=
  namesIn_placedFrom fun _ _ h => nomatch h

/-- In a message lie the messages that it nests. -/
theorem nestedMessages_eq (hnodup : f.messageNames.Nodup) {p : Placed (MessageDescriptor ρ)}
    (hp : p ∈ f.placedMessages) :
    namesIn (some p.fullName) f.placedMessages =
      p.element.nested.map fun n => qualifiedName p.fullName n.name :=
  namesIn_nested _ _ _ _ f.messages (nodup_placedMessages hnodup) (fun _ _ h => nomatch h) p hp

/-! ## Enumerations -/

theorem namesIn_placeEnums (o : Option String) (scope : String) (outer : Option String)
    (base : List Int) (enums : List EnumDescriptor) :
    namesIn o (placeEnums scope outer base enums) =
      if outer = o then enums.map fun e => qualifiedName scope e.name else [] := by
  split
  · rename_i h
    have hall : (placeEnums scope outer base enums).filter (·.outer == o) =
        placeEnums scope outer base enums :=
      List.filter_eq_self.2 fun e he => by simpa [(outer_of_mem_placeEnums he).1] using h
    rw [namesIn, hall, map_fullName_placeEnums]
  · rename_i h
    exact namesIn_eq_nil fun e he => by rwa [(outer_of_mem_placeEnums he).1]

/-- In no message lie the enumerations of the file itself. -/
theorem topEnums_eq (f : FileDescriptor ρ) :
    namesIn none f.placedEnums = f.enums.map fun e => qualifiedName f.package e.name := by
  unfold placedEnums
  rw [namesIn_append, namesIn_flatMap]
  simp [namesIn_placeEnums]

/-- In a message lie the enumerations that it declares. -/
theorem nestedEnums_eq (hnodup : f.messageNames.Nodup) {p : Placed (MessageDescriptor ρ)}
    (hp : p ∈ f.placedMessages) :
    namesIn (some p.fullName) f.placedEnums =
      p.element.enums.map fun e => qualifiedName p.fullName e.name := by
  unfold placedEnums
  rw [namesIn_append, namesIn_flatMap]
  simp only [namesIn_placeEnums, Option.some.injEq, reduceCtorEq, if_false, List.append_nil]
  exact flatMap_ite_of_nodup (·.fullName)
    (fun q => q.element.enums.map fun e => qualifiedName q.fullName e.name)
    (nodup_placedMessages hnodup) hp

end FileDescriptor

end ApiModel
