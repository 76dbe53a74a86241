import ApiModel.Schema.Place

/-!
# Where the declarations of a file are placed

The messages of a file are placed one after another, each behind the message around it.

Principal results:

* `placedMessages_map` — the placed messages are all messages of the file, under their full names;
* `placedMessages_outer` — with full names that differ, no message comes ahead of the one around it;
* `within_placedMessage` — a full name begins with the package.
-/

namespace ApiModel

variable {ρ : Type}

/-! ## All messages -/

mutual

theorem placed_map (scope : String) (outer : Option String) (path : List Int) :
    ∀ m : MessageDescriptor ρ,
      (m.placed scope outer path).map (fun p => (p.fullName, p.element)) = m.withNested scope
  | ⟨name, _, _, nested, _, _, _, _, _⟩ => by
    have hnested := placedFrom_map (qualifiedName scope name) (some (qualifiedName scope name))
      (path ++ [3]) 0 nested
    simp [MessageDescriptor.placed, MessageDescriptor.withNested, hnested]

theorem placedFrom_map (scope : String) (outer : Option String) (base : List Int) (i : Nat) :
    ∀ ms : List (MessageDescriptor ρ),
      (MessageDescriptor.placedFrom scope outer base i ms).map (fun p => (p.fullName, p.element)) =
        MessageDescriptor.allNested scope ms
  | [] => rfl
  | m :: ms => by
    have hm := placed_map scope outer (base ++ [(i : Int)]) m
    have hms := placedFrom_map scope outer base (i + 1) ms
    simp [MessageDescriptor.placedFrom, MessageDescriptor.allNested, hm, hms]

end

/-- The placed messages are all messages of the file, under their full names. -/
theorem FileDescriptor.placedMessages_map (f : FileDescriptor ρ) :
    f.placedMessages.map (fun p => (p.fullName, p.element)) = f.allMessages :=
  placedFrom_map f.package none [4] 0 f.messages

/-! ## Messages behind those around them -/

/-- Each element lies inside one that was placed before it, or is one of the `seen` ones. -/
def OuterSeen {α : Type} (seen : List String) : List (Placed α) → Prop
  | [] => True
  | p :: rest => (∀ o, p.outer = some o → o ∈ seen) ∧ OuterSeen (p.fullName :: seen) rest

section OuterSeen

variable {α : Type} {seen seen' : List String} {ps qs : List (Placed α)}

theorem OuterSeen.mono (h : OuterSeen seen ps) (hsub : ∀ o ∈ seen, o ∈ seen') :
    OuterSeen seen' ps := by
  induction ps generalizing seen seen' with
  | nil => trivial
  | cons p rest ih =>
    obtain ⟨hp, hrest⟩ := h
    refine ⟨fun o ho => hsub o (hp o ho), ih hrest ?_⟩
    intro o ho
    rcases List.mem_cons.1 ho with rfl | ho
    · simp
    · exact List.mem_cons_of_mem _ (hsub o ho)

theorem OuterSeen.append (hp : OuterSeen seen ps) (hq : OuterSeen seen qs) :
    OuterSeen seen (ps ++ qs) := by
  induction ps generalizing seen with
  | nil => exact hq
  | cons p rest ih =>
    obtain ⟨hfirst, hrest⟩ := hp
    exact ⟨hfirst, ih hrest (hq.mono fun o ho => List.mem_cons_of_mem _ ho)⟩

/-- With names that differ from each other and from those seen, no element comes ahead of the one
around it. -/
theorem OuterSeen.outer_ne (h : OuterSeen seen ps) (hnodup : (ps.map (·.fullName)).Nodup)
    (hnew : ∀ p ∈ ps, p.fullName ∉ seen) :
    ps.Pairwise (fun a b => a.outer ≠ some b.fullName) ∧
      ∀ p ∈ ps, p.outer ≠ some p.fullName := by
  induction ps generalizing seen with
  | nil => exact ⟨.nil, by simp⟩
  | cons p rest ih =>
    obtain ⟨hp, hrest⟩ := h
    rw [List.map_cons, List.nodup_cons] at hnodup
    have hnewRest : ∀ q ∈ rest, q.fullName ∉ p.fullName :: seen := by
      intro q hq hmem
      rcases List.mem_cons.1 hmem with heq | hseen
      · exact hnodup.1 (heq ▸ List.mem_map_of_mem hq)
      · exact hnew q (List.mem_cons_of_mem _ hq) hseen
    obtain ⟨hpairs, hself⟩ := ih hrest hnodup.2 hnewRest
    have hahead : ∀ q ∈ p :: rest, p.outer ≠ some q.fullName :=
      fun q hq hout => hnew q hq (hp _ hout)
    refine ⟨List.pairwise_cons.2 ⟨fun q hq => hahead q (by simp [hq]), hpairs⟩, ?_⟩
    rw [List.forall_mem_cons]
    exact ⟨hahead p (by simp), hself⟩

end OuterSeen

mutual

theorem outerSeen_placed (scope : String) (outer : Option String) (path : List Int)
    (seen : List String) (h : ∀ o, outer = some o → o ∈ seen) :
    ∀ m : MessageDescriptor ρ, OuterSeen seen (m.placed scope outer path)
  | ⟨name, _, _, nested, _, _, _, _, _⟩ => by
    unfold MessageDescriptor.placed
    exact ⟨h, outerSeen_placedFrom _ _ _ _ _ (by simp) nested⟩

theorem outerSeen_placedFrom (scope : String) (outer : Option String) (base : List Int) (i : Nat)
    (seen : List String) (h : ∀ o, outer = some o → o ∈ seen) :
    ∀ ms : List (MessageDescriptor ρ),
      OuterSeen seen (MessageDescriptor.placedFrom scope outer base i ms)
  | [] => trivial
  | m :: ms => by
    unfold MessageDescriptor.placedFrom
    exact (outerSeen_placed scope outer _ seen h m).append
      (outerSeen_placedFrom scope outer base (i + 1) seen h ms)

end

/-- No message of a file comes ahead of the one around it. -/
theorem FileDescriptor.placedMessages_outer {f : FileDescriptor ρ}
    (hnodup : (f.allMessages.map Prod.fst).Nodup) :
    f.placedMessages.Pairwise (fun a b => a.outer ≠ some b.fullName) ∧
      ∀ p ∈ f.placedMessages, p.outer ≠ some p.fullName := by
  have hseen : OuterSeen [] f.placedMessages :=
    outerSeen_placedFrom f.package none [4] 0 [] (by simp) f.messages
  refine hseen.outer_ne ?_ (by simp)
  rwa [← placedMessages_map, List.map_map] at hnodup

/-- The message around a message of a file is in the file. -/
theorem OuterSeen.mem_of_outer {α : Type} {seen : List String} {ps : List (Placed α)}
    (h : OuterSeen seen ps) {p : Placed α} (hp : p ∈ ps) {o : String} (ho : p.outer = some o) :
    o ∈ seen ∨ o ∈ ps.map (·.fullName) := by
  induction ps generalizing seen with
  | nil => simp at hp
  | cons q rest ih =>
    obtain ⟨hq, hrest⟩ := h
    rcases List.mem_cons.1 hp with rfl | hp
    · exact .inl (hq o ho)
    · rcases ih hrest hp with hmem | hmem
      · rcases List.mem_cons.1 hmem with rfl | hmem
        · exact .inr (by simp)
        · exact .inl hmem
      · exact .inr (by simp [hmem])

theorem FileDescriptor.mem_names_of_outer {f : FileDescriptor ρ}
    {p : Placed (MessageDescriptor ρ)} (hp : p ∈ f.placedMessages) {o : String}
    (ho : p.outer = some o) : o ∈ f.placedMessages.map (·.fullName) := by
  have hseen : OuterSeen [] f.placedMessages :=
    outerSeen_placedFrom f.package none [4] 0 [] (by simp) f.messages
  simpa using hseen.mem_of_outer hp ho

/-! ## Full names inside a package -/

/-- The name lies inside the package, which it begins with. -/
def Within (package fullName : String) : Prop :=
  package = "" ∨ ∃ rest, fullName = package ++ "." ++ rest

theorem within_qualifiedName {package scope : String} (h : scope = package ∨ Within package scope)
    (name : String) : Within package (qualifiedName scope name) := by
  by_cases hpackage : package = ""
  · exact .inl hpackage
  · refine .inr ?_
    rcases h with rfl | hwithin
    · exact ⟨name, by simp [qualifiedName, hpackage]⟩
    · obtain ⟨rest, rfl⟩ := hwithin.resolve_left hpackage
      refine ⟨rest ++ "." ++ name, ?_⟩
      simp [qualifiedName, hpackage, String.append_assoc]

mutual

theorem within_placed {package : String} (scope : String) (outer : Option String)
    (path : List Int) (h : scope = package ∨ Within package scope) :
    ∀ m : MessageDescriptor ρ, ∀ p ∈ m.placed scope outer path, Within package p.fullName
  | ⟨name, _, _, nested, _, _, _, _, _⟩ => by
    have hname := within_qualifiedName h name
    unfold MessageDescriptor.placed
    rw [List.forall_mem_cons]
    exact ⟨hname, within_placedFrom _ _ _ _ (.inr hname) nested⟩

theorem within_placedFrom {package : String} (scope : String) (outer : Option String)
    (base : List Int) (i : Nat) (h : scope = package ∨ Within package scope) :
    ∀ ms : List (MessageDescriptor ρ),
      ∀ p ∈ MessageDescriptor.placedFrom scope outer base i ms, Within package p.fullName
  | [] => by simp [MessageDescriptor.placedFrom]
  | m :: ms => by
    unfold MessageDescriptor.placedFrom
    rw [List.forall_mem_append]
    exact ⟨within_placed scope outer _ h m, within_placedFrom scope outer base (i + 1) h ms⟩

end

/-- The full name of a message begins with the package of its file. -/
theorem FileDescriptor.within_placedMessage {f : FileDescriptor ρ}
    {p : Placed (MessageDescriptor ρ)} (hp : p ∈ f.placedMessages) :
    Within f.package p.fullName :=
  within_placedFrom f.package none [4] 0 (.inl rfl) f.messages p hp

/-! ## Enumerations, services and members -/

theorem map_zipIdx_fst {α β : Type} (as : List α) (g : α → β) :
    as.zipIdx.map (fun x => g x.1) = as.map g := by
  have hcomp : (fun x : α × Nat => g x.1) = g ∘ Prod.fst := rfl
  rw [hcomp, ← List.map_map, List.zipIdx_map_fst]

/-- The members of an element are those that it declares, in order. -/
theorem Placed.map_fst_members {α β : Type} (p : Placed α) (number : Int) (elements : List β) :
    (p.members number elements).map Prod.fst = elements := by
  unfold Placed.members
  rw [List.map_map]
  exact (map_zipIdx_fst elements id).trans (List.map_id elements)

namespace FileDescriptor

theorem map_fullName_placeEnums (scope : String) (outer : Option String) (base : List Int)
    (enums : List EnumDescriptor) :
    (placeEnums scope outer base enums).map (·.fullName) =
      enums.map fun e => qualifiedName scope e.name := by
  unfold placeEnums
  rw [List.map_map]
  exact map_zipIdx_fst enums fun e => qualifiedName scope e.name

theorem outer_of_mem_placeEnums {scope : String} {outer : Option String} {base : List Int}
    {enums : List EnumDescriptor} {e : Placed EnumDescriptor}
    (he : e ∈ placeEnums scope outer base enums) :
    e.outer = outer ∧ e.fullName = qualifiedName scope e.element.name := by
  obtain ⟨x, -, rfl⟩ := List.mem_map.1 he
  exact ⟨rfl, rfl⟩

/-- The enumerations of a file are placed under their full names, those of messages first. -/
theorem placedEnums_perm (f : FileDescriptor ρ) :
    (f.placedEnums.map (·.fullName)).Perm
      (f.allEnums.map fun (scope, e) => qualifiedName scope e.name) := by
  unfold placedEnums allEnums
  rw [← placedMessages_map, List.map_append, List.map_append]
  refine List.perm_append_comm.trans (.append (.of_eq ?_) (.of_eq ?_))
  · rw [map_fullName_placeEnums, List.map_map]
    rfl
  · rw [List.map_flatMap, List.flatMap_map, List.map_flatMap]
    refine congrArg (f.placedMessages.flatMap ·) (funext fun p => ?_)
    rw [map_fullName_placeEnums, List.map_map]
    rfl

/-- An enumeration lies in the package itself or in a message of the file. -/
theorem mem_placedEnums_cases {f : FileDescriptor ρ} {e : Placed EnumDescriptor}
    (he : e ∈ f.placedEnums) :
    (e.outer = none ∧ e.fullName = qualifiedName f.package e.element.name) ∨
      ∃ p ∈ f.placedMessages, e.outer = some p.fullName ∧
        e.fullName = qualifiedName p.fullName e.element.name := by
  rcases List.mem_append.1 he with he | he
  · obtain ⟨p, hp, he⟩ := List.mem_flatMap.1 he
    exact .inr ⟨p, hp, outer_of_mem_placeEnums he⟩
  · exact .inl (outer_of_mem_placeEnums he)

theorem within_placedEnum {f : FileDescriptor ρ} {e : Placed EnumDescriptor}
    (he : e ∈ f.placedEnums) : Within f.package e.fullName := by
  rcases mem_placedEnums_cases he with ⟨-, hname⟩ | ⟨p, hp, -, hname⟩
  · rw [hname]
    exact within_qualifiedName (.inl rfl) _
  · rw [hname]
    exact within_qualifiedName (.inr (within_placedMessage hp)) _

theorem map_placedServices (f : FileDescriptor ρ) :
    f.placedServices.map (fun s => (s.fullName, s.element)) =
      f.services.map fun s => (qualifiedName f.package s.name, s) := by
  unfold placedServices
  rw [List.map_map]
  exact map_zipIdx_fst f.services fun s => (qualifiedName f.package s.name, s)

theorem mem_services {f : FileDescriptor ρ} {s : Placed ServiceDescriptor}
    (hs : s ∈ f.placedServices) : s.element ∈ f.services := by
  obtain ⟨x, hx, rfl⟩ := List.mem_map.1 hs
  exact List.fst_mem_of_mem_zipIdx hx

end FileDescriptor

end ApiModel
