import ApiModel.Proofs.Declared

/-!
# Valid models

`Api.Valid` says what validation is after: the listed elements are registered in the API's package, and
the messages can be walked through.  `Walkable` is the walk of one message: the message fits, and so
do the enumerations and, to the end, the messages that are nested in it.

Principal results:

* `checkMessages_cons` — the walk goes by a work list: a nesting that is deeper than there are messages
  does not end;
* `checkMessages_eq_ok_iff` — the walk over the pending messages ends without a defect if and only if
  each of them can be walked;
* `validate_eq_ok_iff` — a model passes validation if and only if it is valid;
* `valid_declared` — whether it is depends on what is declared only.
-/

namespace ApiModel

open Validation

namespace Api

variable {api : Api}

/-- An element of a kind is registered. -/
def Registers (api : Api) : ElementKind → String → Prop
  | .service, id => (api.service? id).isSome
  | .method, id => (api.method? id).isSome
  | .message, id => (api.message? id).isSome
  | .enumeration, id => (api.enum? id).isSome

instance (api : Api) : (kind : ElementKind) → (id : String) → Decidable (api.Registers kind id)
  | .service, id => inferInstanceAs (Decidable ((api.service? id).isSome = true))
  | .method, id => inferInstanceAs (Decidable ((api.method? id).isSome = true))
  | .message, id => inferInstanceAs (Decidable ((api.message? id).isSome = true))
  | .enumeration, id => inferInstanceAs (Decidable ((api.enum? id).isSome = true))

/-! ## Fitting elements -/

/-- An ID and a package agree with the API's package, if it has one. -/
def FitsPackage (api : Api) (id package : String) : Prop :=
  api.package = "" ∨ package = api.package ∧ inPackage api.package id = true

/-- The enumeration is registered and fits. -/
def EnumFits (api : Api) (id : String) : Prop :=
  ∃ e, api.enum? id = some e ∧ api.FitsPackage e.id e.package

/-- The service is registered and fits, and its methods are registered. -/
def ServiceFits (api : Api) (id : String) : Prop :=
  ∃ s, api.service? id = some s ∧ api.FitsPackage s.id s.package ∧
    ∀ listed ∈ s.methods, api.registry.methods.contains listed = true

/-- The message is registered and fits, with everything nested in it; the nesting ends. -/
inductive Walkable (api : Api) : String → Prop where
  | intro {id : String} (m : Message) (found : api.message? id = some m)
      (package : api.FitsPackage m.id m.package) (enums : ∀ e ∈ m.enums, api.EnumFits e)
      (nested : ∀ n ∈ m.messages, Walkable api n) : Walkable api id

/-- Everything that is listed fits. -/
structure Valid (api : Api) : Prop where
  services : ∀ id ∈ api.services, api.ServiceFits id
  messages : ∀ id ∈ api.messages, api.Walkable id
  enums : ∀ id ∈ api.enums, api.EnumFits id

/-! ## Single checks -/

theorem checkPackage_eq_ok_iff {kind : ElementKind} {id package : String} :
    checkPackage api.package kind id package = .ok () ↔ api.FitsPackage id package := by
  unfold checkPackage FitsPackage
  split <;> rename_i h <;> simpa [or_iff_not_imp_left] using h

theorem require_eq_ok_iff {α : Type} {found : Option α} {kind : ElementKind} {id : String} {a : α} :
    require found kind id = .ok a ↔ found = some a := by
  cases found <;> simp [require]

theorem checkMethod_eq_ok_iff {id : String} :
    checkMethod api id = .ok () ↔ api.registry.methods.contains id = true := by
  unfold checkMethod
  simp only [bind_eq_ok_iff, require_eq_ok_iff]
  simp [IdMap.contains, method?, Option.isSome_iff_exists, pure, Except.pure]

theorem checkEnum_eq_ok_iff {id : String} : checkEnum api id = .ok () ↔ api.EnumFits id := by
  unfold checkEnum EnumFits
  simp only [bind_eq_ok_iff, require_eq_ok_iff, checkPackage_eq_ok_iff]

theorem checkService_eq_ok_iff {id : String} :
    checkService api id = .ok () ↔ api.ServiceFits id := by
  unfold checkService ServiceFits
  rw [bind_eq_ok_iff]
  simp only [check_bind_eq_ok_iff, require_eq_ok_iff, checkPackage_eq_ok_iff, forM_eq_ok_iff,
    checkMethod_eq_ok_iff]

theorem checkMessage_eq_ok_iff {id : String} {m : Message} :
    checkMessage api id = .ok m ↔ api.message? id = some m ∧ api.FitsPackage m.id m.package ∧
      ∀ e ∈ m.enums, api.EnumFits e := by
  unfold checkMessage
  rw [bind_eq_ok_iff]
  simp only [check_bind_eq_ok_iff, require_eq_ok_iff, checkPackage_eq_ok_iff, forM_eq_ok_iff,
    checkEnum_eq_ok_iff]
  constructor
  · rintro ⟨n, hn, hpackage, henums, h⟩
    cases h
    exact ⟨hn, hpackage, henums⟩
  · rintro ⟨hm, hpackage, henums⟩
    exact ⟨m, hm, hpackage, henums, rfl⟩

/-! ## The walk over messages -/

theorem checkAll_append (check : String → Option (Except Defect Unit)) (ids rest : List String) :
    checkAll check (ids ++ rest) =
      match checkAll check ids with
      | some (.ok ()) => checkAll check rest
      | stopped => stopped := by
  induction ids with
  | nil => rfl
  | cons id ids ih =>
    rw [List.cons_append, checkAll, checkAll]
    split
    · exact ih
    · rename_i hstopped
      split
      · rename_i hok
        exact absurd hok hstopped
      · rfl

theorem checkAll_eq_ok_iff {check : String → Option (Except Defect Unit)} {ids : List String} :
    checkAll check ids = some (.ok ()) ↔ ∀ id ∈ ids, check id = some (.ok ()) := by
  induction ids with
  | nil => simp [checkAll]
  | cons id ids ih =>
    rw [checkAll, List.forall_mem_cons]
    split
    · rename_i hid
      rw [ih]
      simp [hid]
    · rename_i hstopped
      exact ⟨fun h => absurd h hstopped, fun h => absurd h.1 hstopped⟩

/-- A check that decides more decides a list in the same way. -/
theorem checkAll_mono {check more : String → Option (Except Defect Unit)} {ids : List String}
    (h : ∀ id r, check id = some r → more id = some r) {r : Except Defect Unit}
    (hr : checkAll check ids = some r) : checkAll more ids = some r := by
  induction ids with
  | nil => exact hr
  | cons id ids ih =>
    rw [checkAll] at hr ⊢
    split at hr
    · rename_i hid
      rw [h id _ hid]
      exact ih hr
    · rename_i hstopped
      rw [h id r hr]
      split
      · rename_i hok
        exact absurd (hr.trans hok) hstopped
      · rfl

/-- A deeper check decides the same. -/
theorem checkNested_mono {depth : Nat} {id : String} {r : Except Defect Unit}
    (h : checkNested api depth id = some r) : checkNested api (depth + 1) id = some r := by
  induction depth generalizing id r with
  | zero => cases h
  | succ depth ih =>
    rw [checkNested] at h ⊢
    split at h
    · exact h
    · exact checkAll_mono (fun id r hr => ih hr) h

/-- The registered messages that a check to some depth leaves open. -/
def undecided (api : Api) (depth : Nat) : List String :=
  api.registry.messages.keys.filter fun id => (checkNested api depth id).isNone

theorem undecided_sublist (api : Api) (depth : Nat) :
    (api.undecided (depth + 1)).Sublist (api.undecided depth) := by
  refine List.monotone_filter_right _ fun id hopen => ?_
  rw [Option.isNone_iff_eq_none] at hopen ⊢
  cases h : checkNested api depth id with
  | none => rfl
  | some r =>
    rw [checkNested_mono h] at hopen
    cases hopen

/-- Where a deeper check leaves as much open, it decides nothing more. -/
theorem checkNested_eq_of_undecided {depth : Nat}
    (h : api.undecided (depth + 2) = api.undecided (depth + 1)) :
    checkNested api (depth + 2) = checkNested api (depth + 1) := by
  funext id
  cases hid : checkNested api (depth + 1) id with
  | some r => exact checkNested_mono hid
  | none =>
    -- a message that is not registered is decided at once
    have hreg : api.registry.messages.contains id = true := by
      by_contra hnot
      have hmissing : api.message? id = none := by
        unfold message?
        simpa [IdMap.contains] using hnot
      rw [checkNested, checkMessage, hmissing] at hid
      cases hid
    have hopen : id ∈ api.undecided (depth + 2) := by
      rw [h]
      exact List.mem_filter.2 ⟨IdMap.mem_keys_iff.2 hreg, by simp [hid]⟩
    simpa using (List.mem_filter.1 hopen).2

/-- Each level decides a message more, until a level decides none and all deeper ones do not either. -/
theorem checkNested_stable_or_undecided_le (api : Api) (depth : Nat) :
    checkNested api (depth + 2) = checkNested api (depth + 1) ∨
      (api.undecided (depth + 1)).length + depth ≤ api.registry.messages.size := by
  induction depth with
  | zero =>
    right
    have hkeys : api.registry.messages.keys.length = api.registry.messages.size :=
      List.length_map _
    rw [← hkeys]
    exact List.length_filter_le _ _
  | succ depth ih =>
    rcases ih with hstable | hle
    · left
      funext id
      rw [checkNested, checkNested, hstable]
    · have hsub := undecided_sublist api (depth + 1)
      rcases Nat.lt_or_ge (api.undecided (depth + 2)).length (api.undecided (depth + 1)).length with
        hless | hsame
      · right
        show (api.undecided (depth + 2)).length + (depth + 1) ≤ _
        omega
      · left
        have hstable := checkNested_eq_of_undecided (hsub.eq_of_length_le hsame)
        funext id
        rw [checkNested, checkNested, hstable]

/-- No nesting of different messages is deeper than there are messages. -/
theorem checkNested_size :
    checkNested api (api.registry.messages.size + 2) =
      checkNested api (api.registry.messages.size + 1) := by
  rcases checkNested_stable_or_undecided_le api api.registry.messages.size with
    hstable | hle
  · exact hstable
  · have hnone : api.undecided (api.registry.messages.size + 1) = [] := by
      rw [← List.length_eq_zero_iff]
      omega
    have hsub := undecided_sublist api (api.registry.messages.size + 1)
    rw [hnone] at hsub
    exact checkNested_eq_of_undecided (by rw [hnone, List.sublist_nil.1 hsub])

/-- **The walk from a work list**: the messages nested in a checked one go in front of those that wait. -/
theorem checkMessages_cons (id : String) (pending : List String) :
    checkMessages api (id :: pending) =
      match checkMessage api id with
      | .error e => some (.error e)
      | .ok m => checkMessages api (m.messages ++ pending) := by
  unfold checkMessages
  rw [checkAll, ← checkNested_size, checkNested]
  cases checkMessage api id with
  | error e => rfl
  | ok m =>
    simp only
    rw [checkNested_size]
    exact (checkAll_append _ m.messages pending).symm

/-- Messages that leave the rest of the walk as it is leave it so one after another. -/
theorem checkMessages_append {ids : List String}
    (h : ∀ id ∈ ids, ∀ pending, checkMessages api (id :: pending) = checkMessages api pending)
    (pending : List String) : checkMessages api (ids ++ pending) = checkMessages api pending := by
  induction ids with
  | nil => rfl
  | cons id rest ih =>
    rw [List.cons_append, h id (by simp)]
    exact ih fun x hx => h x (by simp [hx])

/-- A walkable message is walked through, and the walk goes on. -/
theorem checkMessages_cons_of_walkable {id : String} (h : api.Walkable id) (pending : List String) :
    checkMessages api (id :: pending) = checkMessages api pending := by
  induction h generalizing pending with
  | intro m found package enums nested ih =>
    rw [checkMessages_cons, checkMessage_eq_ok_iff.2 ⟨found, package, enums⟩]
    exact checkMessages_append ih pending

theorem walkable_of_checkNested {depth : Nat} {id : String}
    (h : checkNested api depth id = some (.ok ())) : api.Walkable id := by
  induction depth generalizing id with
  | zero => cases h
  | succ depth ih =>
    rw [checkNested] at h
    split at h
    · cases h
    · rename_i m hm
      obtain ⟨found, package, enums⟩ := checkMessage_eq_ok_iff.1 hm
      exact .intro m found package enums fun n hn => ih (checkAll_eq_ok_iff.1 h n hn)

/-- **The walk ends without a defect** if and only if each pending message can be walked. -/
theorem checkMessages_eq_ok_iff {pending : List String} :
    checkMessages api pending = some (.ok ()) ↔ ∀ id ∈ pending, api.Walkable id := by
  refine ⟨fun h id hid => walkable_of_checkNested (checkAll_eq_ok_iff.1 h id hid), fun h => ?_⟩
  have hwalk := checkMessages_append (fun id hid => checkMessages_cons_of_walkable (h id hid)) []
  rw [List.append_nil] at hwalk
  rw [hwalk]
  rfl

/-- **A model passes validation if and only if it is valid.** -/
theorem validate_eq_ok_iff : api.validate = .ok () ↔ api.Valid := by
  have hmessages : (checkMessages api api.messages).getD (.error (.missingElement .message "")) =
      .ok () ↔ ∀ id ∈ api.messages, api.Walkable id := by
    rw [← checkMessages_eq_ok_iff]
    cases checkMessages api api.messages <;> simp
  unfold validate
  simp only [check_bind_eq_ok_iff, forM_eq_ok_iff, checkService_eq_ok_iff, checkEnum_eq_ok_iff,
    hmessages]
  constructor
  · rintro ⟨hservices, hmessages, henums⟩
    exact ⟨hservices, hmessages, henums⟩
  · rintro ⟨hservices, hmessages, henums⟩
    exact ⟨hservices, hmessages, henums⟩

/-! ## What is declared decides -/

theorem enumFits_declared {id : String} : api.declared.EnumFits id ↔ api.EnumFits id := by
  unfold EnumFits
  rw [enum?_declared]
  cases api.enum? id with
  | none => simp
  | some e => simp [Enumeration.bare, FitsPackage, declared]

theorem serviceFits_declared {id : String} : api.declared.ServiceFits id ↔ api.ServiceFits id := by
  unfold ServiceFits
  simp only [contains_methods_declared]
  rw [service?_declared]
  cases api.service? id with
  | none => simp
  | some s => simp [Service.bare, FitsPackage, declared]

theorem walkable_declared {id : String} : api.declared.Walkable id ↔ api.Walkable id := by
  constructor
  · intro h
    induction h with
    | intro m found package enums nested ih =>
      rw [message?_declared] at found
      obtain ⟨n, hn, rfl⟩ := Option.map_eq_some_iff.1 found
      exact .intro n hn package (fun e he => enumFits_declared.1 (enums e he)) ih
  · intro h
    induction h with
    | intro m found package enums nested ih =>
      refine .intro m.bare ?_ package (fun e he => enumFits_declared.2 (enums e he)) ih
      rw [message?_declared, found]
      rfl

/-- Whether a model is valid depends on what is declared only. -/
theorem valid_declared : api.declared.Valid ↔ api.Valid := by
  constructor
  · rintro ⟨hservices, hmessages, henums⟩
    exact ⟨fun id hid => serviceFits_declared.1 (hservices id hid),
      fun id hid => walkable_declared.1 (hmessages id hid),
      fun id hid => enumFits_declared.1 (henums id hid)⟩
  · rintro ⟨hservices, hmessages, henums⟩
    exact ⟨fun id hid => serviceFits_declared.2 (hservices id hid),
      fun id hid => walkable_declared.2 (hmessages id hid),
      fun id hid => enumFits_declared.2 (henums id hid)⟩

end Api

end ApiModel
