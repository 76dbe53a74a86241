import ApiModel.Proofs.Target.Recorded

/-!
# What the two strategies need and find

The explicit pass looks at the fields that the variables of a path are bound to, the pass by vocabulary at the
collections before them.  Both look for the request first and for the host last.

Principal results:

* `follow_eq_ok_iff` — a field path is followed to the field it leads to;
* `explicit?_eq_ok_iff` — **the explicit pass has a target if and only if** the path is annotated;
* `byVocabulary?_eq_ok_iff` — **the pass by vocabulary has one if and only if** its search finds something.
-/

namespace ApiModel

/-- A field path leads from a message to a field, through the messages that the fields on it hold. -/
inductive Api.FieldAt (api : Api) : Message → List String → Field → Prop where
  | here {message : Message} {name : String} {f : Field} (field : message.field? name = some f) :
      FieldAt api message [name] f
  | inside {message inner : Message} {name : String} {rest : List String} {f target : Field}
      (field : message.field? name = some f) (holds : api.fieldMessage? f = some inner)
      (path : FieldAt api inner rest target) : FieldAt api message (name :: rest) target

/-- Where a field path leads, the messages of a model decide. -/
theorem Api.FieldAt.congr {api api' : Api} (h : ∀ id, api'.message? id = api.message? id)
    {message : Message} {path : List String} {f : Field} (hf : api.FieldAt message path f) :
    api'.FieldAt message path f := by
  induction hf with
  | here field => exact .here field
  | inside field holds _ ih =>
    refine .inside field ?_ ih
    unfold fieldMessage? at holds ⊢
    rwa [funext h]

namespace Target

variable {api : Api} {s : Service} {m : Method} {path : PathTemplate} {words : List String}
  {t : Option TargetResource}

/-! ## Field paths -/

theorem elim_eq_ok_iff {α : Type} {o : Option α} {d : Defect} {a : α} :
    o.elim (.error d) Except.ok = .ok a ↔ o = some a := by
  cases o <;> simp

/-- A field path is followed to the field it leads to. -/
theorem follow_eq_ok_iff {whole : String} {message : Message} {names : List String} {f : Field} :
    follow api m whole message names = .ok f ↔ api.FieldAt message names f := by
  induction names generalizing message with
  | nil => simp [follow, iff_false_intro (fun h : api.FieldAt message [] f => nomatch h)]
  | cons name rest ih =>
    cases rest with
    | nil =>
      unfold follow
      rw [elim_eq_ok_iff]
      constructor
      · exact .here
      · intro h
        cases h with
        | here hfield => exact hfield
        | inside _ _ hrest => nomatch hrest
    | cons next rest =>
      unfold follow
      simp only [bind_eq_ok_iff, elim_eq_ok_iff, ih]
      constructor
      · rintro ⟨g, hfield, inner, hholds, hrest⟩
        exact .inside hfield hholds hrest
      · intro h
        cases h with
        | inside hfield hholds hrest => exact ⟨_, hfield, _, hholds, hrest⟩

theorem request_eq_ok_iff {input : Message} :
    request api m = .ok input ↔ api.message? m.inputTypeId = some input :=
  elim_eq_ok_iff

/-! ## The explicit pass -/

/-- The variable is bound to a field of the request that refers to a resource. -/
def RefersToResource (api : Api) (m : Method) (v : PathVariable) : Prop :=
  ∃ input f, api.message? m.inputTypeId = some input ∧ api.FieldAt input v.fieldPath f ∧
    f.resourceReference ≠ none

/-- The path has variables, and all of them are bound to fields that refer to resources. -/
def Annotated (api : Api) (m : Method) (path : PathTemplate) : Prop :=
  path.boundVariables ≠ [] ∧ ∀ v ∈ path.boundVariables, RefersToResource api m v

/-- Whether a path is annotated, the fields that its variables are bound to decide. -/
theorem annotated_iff {input : Message} {fields : List Field}
    (hinput : api.message? m.inputTypeId = some input)
    (hfields : path.boundVariables.mapM (boundField api m input) = .ok fields) :
    Annotated api m path ↔ (fields.isEmpty || fields.any (·.resourceReference.isNone)) = false := by
  have hlength := (mapM_eq_ok_iff.1 hfields).length_eq
  simp only [Bool.or_eq_false_iff, List.isEmpty_eq_false_iff, List.any_eq_false]
  constructor
  · rintro ⟨hne, hall⟩
    refine ⟨?_, fun f hf => ?_⟩
    · rintro rfl
      exact hne (List.length_eq_zero_iff.1 hlength)
    · obtain ⟨v, hv, hbound⟩ := exists_of_mapM hfields hf
      obtain ⟨other, g, hother, hg, hrefers⟩ := hall v hv
      obtain rfl := Option.some.inj (hother.symm.trans hinput)
      obtain rfl := Except.ok.inj ((follow_eq_ok_iff.2 hg).symm.trans hbound)
      simpa using hrefers
  · rintro ⟨hne, hall⟩
    refine ⟨?_, fun v hv => ?_⟩
    · intro hnil
      rw [hnil] at hlength
      exact hne (List.length_eq_zero_iff.1 hlength.symm)
    · obtain ⟨f, hf, hbound⟩ := exists_result_of_mapM hfields hv
      exact ⟨input, f, hinput, follow_eq_ok_iff.1 hbound, by simpa using hall f hf⟩

/-- The variables of a path are bound to fields as far as their field paths lead to one. -/
theorem exists_fields_iff {input : Message} :
    (∃ fields, path.boundVariables.mapM (boundField api m input) = .ok fields) ↔
      ∀ v ∈ path.boundVariables, ∃ f, api.FieldAt input v.fieldPath f := by
  rw [exists_mapM_eq_ok_iff]
  exact forall₂_congr fun v _ => exists_congr fun f => follow_eq_ok_iff

/-- **The explicit pass** needs the request and the field of every variable.  It has a target if the path is
annotated, for which it needs a host, and none otherwise. -/
theorem explicit?_eq_ok_iff : explicit? api s m path = .ok t ↔
    ∃ input, api.message? m.inputTypeId = some input ∧
      (∀ v ∈ path.boundVariables, ∃ f, api.FieldAt input v.fieldPath f) ∧
      (Annotated api m path → ∃ name, template api s (fromFirst (dropTail path.segments)) = .ok name ∧
        t = some { fieldPaths := path.boundVariables.map (·.fieldPath), template := name }) ∧
      (¬ Annotated api m path → t = none) := by
  unfold explicit?
  constructor
  · intro h
    obtain ⟨input, hinput, h⟩ := bind_eq_ok_iff.1 h
    obtain ⟨fields, hfields, h⟩ := bind_eq_ok_iff.1 h
    have hinput := request_eq_ok_iff.1 hinput
    have hannotated := annotated_iff hinput hfields
    refine ⟨input, hinput, exists_fields_iff.1 ⟨fields, hfields⟩, ?_⟩
    split at h
    · rename_i hplain
      rw [hplain] at hannotated
      exact ⟨fun hall => absurd (hannotated.1 hall) (by simp), fun _ => (Except.ok.inj h).symm⟩
    · rename_i hall
      obtain ⟨name, hname, h⟩ := bind_eq_ok_iff.1 h
      have hall := hannotated.2 (Bool.eq_false_iff.2 hall)
      exact ⟨fun _ => ⟨name, hname, (Except.ok.inj h).symm⟩, fun hplain => absurd hall hplain⟩
  · rintro ⟨input, hinput, hfields, hannotated, hplain⟩
    obtain ⟨fields, hfields⟩ := exists_fields_iff.2 hfields
    refine bind_eq_ok_iff.2 ⟨input, request_eq_ok_iff.2 hinput, bind_eq_ok_iff.2 ⟨fields, hfields, ?_⟩⟩
    by_cases hall : Annotated api m path
    · obtain ⟨name, hname, rfl⟩ := hannotated hall
      rw [(annotated_iff hinput hfields).1 hall]
      exact bind_eq_ok_iff.2 ⟨name, hname, rfl⟩
    · obtain rfl := hplain hall
      rw [if_pos (Bool.not_eq_false _ ▸ mt (annotated_iff hinput hfields).2 hall)]
      rfl

/-! ## The pass by vocabulary -/

/-- The search by vocabulary finds something: the service is eligible, and there are pairs. -/
def Finds (words : List String) (s : Service) (path : PathTemplate) : Prop :=
  isEligible s.id = true ∧ firstPairs words path.segments ≠ []

theorem byVocabulary?_of_not_finds (h : ¬ Finds words s path) :
    byVocabulary? api s m path words = .ok none := by
  unfold byVocabulary?
  split
  · rfl
  · rename_i heligible
    split
    · rfl
    · rename_i hne
      exact absurd ⟨by simpa using heligible, hne⟩ h

/-- The steps that are left once the search has found something. -/
theorem byVocabulary?_of_finds (h : Finds words s path) :
    byVocabulary? api s m path words = (do
      let input ← request api m
      (firstPairs words path.segments).forM fun p => discard (boundField api m input p.id)
      let name ← template api s ((firstPairs words path.segments).flatMap Pair.segments)
      return some { fieldPaths := (firstPairs words path.segments).map (·.id.fieldPath), template := name }) := by
  unfold byVocabulary?
  rw [if_neg (by simp [h.1])]
  split
  · rename_i hnil
    exact absurd hnil h.2
  · rfl

/-- The fields of pairs are found as far as the field paths of their variables lead to one. -/
theorem forM_boundField_eq_ok_iff {input : Message} {ps : List Pair} :
    (ps.forM fun p => discard (boundField api m input p.id)) = .ok () ↔
      ∀ p ∈ ps, ∃ f, api.FieldAt input p.id.fieldPath f := by
  rw [forM_eq_ok_iff]
  refine forall₂_congr fun p _ => ?_
  constructor
  · intro h
    obtain ⟨f, hf, -⟩ := bind_eq_ok_iff.1 h
    exact ⟨f, follow_eq_ok_iff.1 hf⟩
  · rintro ⟨f, hf⟩
    exact bind_eq_ok_iff.2 ⟨f, follow_eq_ok_iff.2 hf, rfl⟩

/-- **The pass by vocabulary** has a target if its search finds something, for which it needs the request, the
fields of the pairs and a host, and none otherwise. -/
theorem byVocabulary?_eq_ok_iff : byVocabulary? api s m path words = .ok t ↔
    (Finds words s path → ∃ input name, api.message? m.inputTypeId = some input ∧
      (∀ p ∈ firstPairs words path.segments, ∃ f, api.FieldAt input p.id.fieldPath f) ∧
      template api s ((firstPairs words path.segments).flatMap Pair.segments) = .ok name ∧
      t = some { fieldPaths := (firstPairs words path.segments).map (·.id.fieldPath), template := name }) ∧
    (¬ Finds words s path → t = none) := by
  by_cases hfinds : Finds words s path
  · rw [byVocabulary?_of_finds hfinds]
    constructor
    · intro h
      obtain ⟨input, hinput, h⟩ := bind_eq_ok_iff.1 h
      obtain ⟨hfields, h⟩ := check_bind_eq_ok_iff.1 h
      obtain ⟨name, hname, h⟩ := bind_eq_ok_iff.1 h
      refine ⟨fun _ => ⟨input, name, request_eq_ok_iff.1 hinput, ?_, hname, (Except.ok.inj h).symm⟩,
        fun hno => absurd hfinds hno⟩
      exact forM_boundField_eq_ok_iff.1 hfields
    · rintro ⟨htarget, -⟩
      obtain ⟨input, name, hinput, hfields, hname, rfl⟩ := htarget hfinds
      refine bind_eq_ok_iff.2 ⟨input, request_eq_ok_iff.2 hinput, check_bind_eq_ok_iff.2 ⟨?_, ?_⟩⟩
      · exact forM_boundField_eq_ok_iff.2 hfields
      · exact bind_eq_ok_iff.2 ⟨name, hname, rfl⟩
  · rw [byVocabulary?_of_not_finds hfinds]
    constructor
    · intro h
      exact ⟨fun h' => absurd h' hfinds, fun _ => (Except.ok.inj h).symm⟩
    · intro h
      rw [h.2 hfinds]

theorem ofPath_of_explicit?_none (h : explicit? api s m path = .ok none) :
    ofPath api words s m path = byVocabulary? api s m path words := by
  unfold ofPath
  rw [h]
  rfl

end Target

end ApiModel
