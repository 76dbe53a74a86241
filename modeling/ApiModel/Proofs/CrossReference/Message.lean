import ApiModel.Proofs.Repeat
import ApiModel.Proofs.Resolved

/-!
# Linking messages

What linking writes into the fields of a message, field by field and then one-of by one-of.  Where a
field is a member of several one-ofs, the last one has it.

Principal results:

* `linkField_state` — the links of a field as a function of what is registered;
* `linkMessage_repeats` — linking a message repeats itself;
* `linkMessage_idle_iff` — it is idle if and only if both of its passes over the fields are.
-/

namespace ApiModel

open Outcome

/-- The links of a field of a message, as far as its type is registered. -/
def Registry.linksOf (r : Registry) (messageId : String) (f : Field) : FieldLinks :=
  { f.links with
    parent := some messageId
    messageType :=
      if f.kind = .message ∧ r.messages.contains f.typeId then some f.typeId else f.links.messageType
    enumType :=
      if f.kind = .enumeration ∧ r.enums.contains f.typeId then some f.typeId else f.links.enumType }

/-- The field as a member of a one-of. -/
def Field.inGroup (messageId oneOfId : String) (f : Field) : Field :=
  { f with links.group := some oneOfId, links.parent := some messageId }

/-- The passes over the fields of a message. -/
def Registry.fieldPasses (r : Registry) (m : Message) :
    List (List Field → Outcome (List Field) Defect) :=
  [sweep (r.linkField m.id), fun fields => fold (joinGroup m.id) fields m.groupMembers]

namespace Api

/-! ## Fields -/

theorem linkField_state (r : Registry) (messageId : String) (f : Field) :
    (r.linkField messageId f).state = { f with links := r.linksOf messageId f } := by
  unfold Registry.linkField Registry.linksOf
  dsimp only
  split
  · rename_i hkind
    split <;> rename_i hreg <;> simp [hkind, hreg]
  · rename_i hkind
    split <;> rename_i hreg <;> simp [hkind, hreg]
  · rename_i hmessage henum
    rw [if_neg fun h => hmessage h.1, if_neg fun h => henum h.1]

/-- Whether a field has a defect is no matter of its links. -/
theorem linkField_defect_congr {r : Registry} {messageId : String} {f g : Field}
    (h : g.bare = f.bare) : (r.linkField messageId g).defect = (r.linkField messageId f).defect := by
  have hkind : g.bare.kind = f.bare.kind := congrArg Field.kind h
  have htype : g.bare.typeId = f.bare.typeId := congrArg Field.typeId h
  have hid : g.bare.id = f.bare.id := congrArg Field.id h
  simp only [Field.bare] at hkind htype hid
  unfold Registry.linkField
  dsimp only
  rw [hkind, htype, hid]
  split
  · split <;> rfl
  · split <;> rfl
  · rfl

theorem linkField_repeats (r : Registry) (messageId : String) : Repeats (r.linkField messageId) := by
  intro f
  refine Outcome.ext ?_ (linkField_defect_congr (bare_linkField r messageId f))
  simp only [linkField_state, Registry.linksOf]
  split <;> split <;> rfl

/-- The place of the first field with an ID; behind the last one if there is none. -/
def fieldPlace (fields : List Field) (id : String) : Nat := fields.findIdx (·.id == id)

theorem fieldPlace_congr {fields others : List Field}
    (h : others.map (·.id) = fields.map (·.id)) (id : String) :
    fieldPlace others id = fieldPlace fields id := by
  have hids : ∀ fs : List Field, fieldPlace fs id = (fs.map (·.id)).findIdx (· == id) := by
    intro fs
    rw [List.findIdx_map]
    rfl
  rw [hids, hids, h]

theorem joinGroup_state (messageId : String) (fields : List Field) (member : String × String) :
    (joinGroup messageId fields member).state =
      fields.modify (fieldPlace fields member.2) (Field.inGroup messageId member.1) := by
  unfold joinGroup
  dsimp only
  split
  · rename_i hnone
    have hend := List.findIdx?_eq_none_iff_findIdx_eq.1 hnone
    exact (List.modify_eq_self (Nat.le_of_eq hend.symm)).symm
  · rename_i i hsome
    obtain ⟨-, hplace⟩ := List.findIdx?_eq_some_iff_findIdx_eq.1 hsome
    rw [fieldPlace, hplace]
    rfl

theorem joinGroup_defect (messageId : String) (fields : List Field) (member : String × String) :
    (joinGroup messageId fields member).defect =
      if member.2 ∈ fields.map (·.id) then none
      else some (.missingOneOfField member.1 member.2) := by
  split
  · rename_i hmem
    exact joinGroup_defect_eq_none_iff.2 hmem
  · rename_i hmem
    have hsome : (joinGroup messageId fields member).defect ≠ none :=
      mt joinGroup_defect_eq_none_iff.1 hmem
    unfold joinGroup at hsome ⊢
    dsimp only at hsome ⊢
    split at hsome
    · rfl
    · exact absurd rfl hsome

/-- Whichever member of a one-of comes last has its field. -/
theorem joinGroup_overwrites (messageId : String) : Overwrites (joinGroup messageId) := by
  have hplace : ∀ fields member id, fieldPlace (joinGroup messageId fields member).state id =
      fieldPlace fields id := by
    intro fields member id
    exact fieldPlace_congr (map_id_joinGroup messageId fields member) id
  have hover : ∀ a b, Field.inGroup messageId b ∘ Field.inGroup messageId a =
      Field.inGroup messageId b := fun _ _ => rfl
  refine ⟨?_, ?_, ?_⟩
  · intro fields a b
    rw [joinGroup_defect, joinGroup_defect, map_id_joinGroup]
  · intro fields a
    rw [joinGroup_state, hplace, joinGroup_state, List.modify_modify_eq, hover]
  · intro fields a b
    have hboth : ∀ a b, (joinGroup messageId (joinGroup messageId fields a).state b).state =
        (fields.modify (fieldPlace fields a.2) (Field.inGroup messageId a.1)).modify
          (fieldPlace fields b.2) (Field.inGroup messageId b.1) := by
      intro a b
      rw [joinGroup_state, hplace, joinGroup_state]
    rw [hboth, hboth]
    by_cases hsame : fieldPlace fields a.2 = fieldPlace fields b.2
    · left
      rw [hsame, List.modify_modify_eq, hover, joinGroup_state]
    · right
      exact List.modify_modify_ne _ _ _ hsame

/-! ## Messages -/

theorem linkMessage_eq_chain (r : Registry) (m : Message) :
    r.linkMessage m = (chain (r.fieldPasses m) m.fields).map fun fields => { m with fields } := by
  unfold Registry.linkMessage Registry.fieldPasses
  simp only [chain, andThen_ok]

/-- Joining a group leaves a linked field linked. -/
theorem linkField_inGroup {r : Registry} {messageId oneOfId : String} {f : Field}
    (h : Idle (r.linkField messageId) f) :
    Idle (r.linkField messageId) (f.inGroup messageId oneOfId) := by
  have hcomm : r.linkField messageId (f.inGroup messageId oneOfId) =
      (r.linkField messageId f).map (Field.inGroup messageId oneOfId) := by
    unfold Registry.linkField Field.inGroup
    dsimp only
    split
    · split <;> rfl
    · split <;> rfl
    · rfl
  unfold Idle at h ⊢
  rw [hcomm, h]
  rfl

theorem fieldPasses_repeat (r : Registry) (m : Message) : ∀ f ∈ r.fieldPasses m, Repeats f := by
  intro f hf
  rcases List.mem_pair.1 hf with rfl | rfl
  · exact sweep_repeats (linkField_repeats r m.id)
  · exact fold_repeats (joinGroup_overwrites m.id) m.groupMembers

theorem fieldPasses_keep (r : Registry) (m : Message) :
    (r.fieldPasses m).Pairwise fun f g => Keeps g f := by
  refine List.pairwise_pair.2 ?_
  intro fields hidle
  rw [sweep_idle_iff] at hidle ⊢
  refine fold_inv (fun fields => ∀ f ∈ fields, Idle (r.linkField m.id) f) hidle ?_
  intro fields hfields member _ f hf
  rw [joinGroup_state] at hf
  obtain ⟨i, hi⟩ := List.mem_iff_getElem?.1 hf
  rw [List.getElem?_modify] at hi
  obtain ⟨g, hg, rfl⟩ := Option.map_eq_some_iff.1 hi
  have hidleg := hfields g (List.mem_iff_getElem?.2 ⟨i, hg⟩)
  split
  · exact linkField_inGroup hidleg
  · exact hidleg

theorem linkMessage_repeats (r : Registry) : Repeats r.linkMessage := by
  intro m
  have hrepeats := chain_repeats (fieldPasses_repeat r m) (fieldPasses_keep r m) m.fields
  rw [linkMessage_eq_chain, linkMessage_eq_chain, map_state]
  show (chain (r.fieldPasses m) (chain (r.fieldPasses m) m.fields).state).map _ = _
  rw [hrepeats]

theorem linkMessage_idle_iff {r : Registry} {m : Message} :
    Idle r.linkMessage m ↔ ∀ f ∈ r.fieldPasses m, Idle f m.fields := by
  rw [← chain_idle_iff (fieldPasses_repeat r m) (fieldPasses_keep r m)]
  unfold Idle
  rw [linkMessage_eq_chain]
  exact map_eq_iff Message.fields fun _ => rfl

/-- Linking a field asks only which types are registered. -/
theorem linkField_congr {r other : Registry}
    (hmessages : ∀ id, other.messages.contains id = r.messages.contains id)
    (henums : ∀ id, other.enums.contains id = r.enums.contains id) :
    other.linkField = r.linkField := by
  funext messageId f
  unfold Registry.linkField
  simp only [hmessages, henums]

/-- So does linking a message. -/
theorem linkMessage_congr {r other : Registry}
    (hmessages : ∀ id, other.messages.contains id = r.messages.contains id)
    (henums : ∀ id, other.enums.contains id = r.enums.contains id) :
    other.linkMessage = r.linkMessage := by
  funext m
  unfold Registry.linkMessage
  rw [linkField_congr hmessages henums]

end Api

end ApiModel
