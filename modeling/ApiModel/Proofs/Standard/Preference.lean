import ApiModel.Proofs.Paginate

/-!
# Which field is preferred

Several tests may find the field that a standard method is keyed on, and they are tried one after the
other: a later test counts only where no field passes an earlier one.  Of the fields that pass a test the first
is taken.

Principal results:

* `or_find?_eq_some_iff` — a search that falls back on others prefers what it finds;
* `resourceField?_eq_some_iff`, `namedFirst?_eq_some_iff`, `parentField?_eq_some_iff`,
  `bodyField?_eq_some_iff` — **the field of each search is the preferred one** by its tests.
-/

namespace ApiModel

namespace Field

/-- The field refers to a resource of the type. -/
def RefersTo (kind : String) (f : Field) : Prop :=
  ∃ r, f.resourceReference = some r ∧ r.kind = kind

/-- The field refers to the parents of resources of the type. -/
def RefersToParentOf (kind : String) (f : Field) : Prop :=
  ∃ r, f.resourceReference = some r ∧ r.childKind = kind

/-- The field holds a message with the ID. -/
def HoldsMessage (id : String) (f : Field) : Prop := f.kind = .message ∧ f.typeId = id

end Field

namespace Standard

open Pagination (IsFirst find?_eq_some_iff_isFirst)

/-- The first of the fields that pass a test, by the first of the tests that any of them passes. -/
inductive Preferred (fields : List Field) : List (Field → Prop) → Field → Prop where
  | found {P : Field → Prop} {tests : List (Field → Prop)} {f : Field} (first : IsFirst P fields f) :
      Preferred fields (P :: tests) f
  | passed {P : Field → Prop} {tests : List (Field → Prop)} {f : Field}
      (none : ∀ g ∈ fields, ¬ P g) (later : Preferred fields tests f) :
      Preferred fields (P :: tests) f

variable {fields : List Field} {P : Field → Prop} {tests : List (Field → Prop)} {p : Field → Bool}
  {f : Field} {input : Message} {kind : String}

/-! ## Searches -/

theorem preferred_cons_iff :
    Preferred fields (P :: tests) f ↔
      IsFirst P fields f ∨ (∀ g ∈ fields, ¬ P g) ∧ Preferred fields tests f := by
  constructor
  · intro h
    cases h with
    | found first => exact .inl first
    | passed none later => exact .inr ⟨none, later⟩
  · rintro (first | ⟨none, later⟩)
    · exact .found first
    · exact .passed none later

theorem find?_eq_none_iff (hp : ∀ g, p g = true ↔ P g) :
    fields.find? p = none ↔ ∀ g ∈ fields, ¬ P g := by
  rw [List.find?_eq_none]
  simp only [hp]

/-- A search that falls back on others prefers what it finds. -/
theorem or_find?_eq_some_iff (hp : ∀ g, p g = true ↔ P g) {others : Option Field}
    (hothers : others = some f ↔ Preferred fields tests f) :
    (fields.find? p).or others = some f ↔ Preferred fields (P :: tests) f := by
  rw [Option.or_eq_some_iff, find?_eq_some_iff_isFirst hp, find?_eq_none_iff hp, hothers,
    preferred_cons_iff]

/-- The last search has nothing to fall back on. -/
theorem find?_eq_some_iff_preferred (hp : ∀ g, p g = true ↔ P g) :
    fields.find? p = some f ↔ Preferred fields [P] f := by
  have hnone : (none : Option Field) = some f ↔ Preferred fields [] f := by
    constructor
    · intro h
      cases h
    · intro h
      cases h
  rw [← or_find?_eq_some_iff hp hnone, Option.or_none]

/-- Of the fields that pass, one with the name is preferred. -/
theorem or_namedFirst?_eq_some_iff (hp : ∀ g, p g = true ↔ P g) (name : String)
    {others : Option Field} (hothers : others = some f ↔ Preferred fields tests f) :
    (namedFirst? name p fields).or others = some f ↔
      Preferred fields ((fun g => g.name = name ∧ P g) :: P :: tests) f := by
  unfold namedFirst?
  rw [List.find?_filter, Option.or_assoc]
  apply or_find?_eq_some_iff
  · intro g
    rw [decide_eq_true_iff, hp, beq_iff_eq, and_comm]
  · exact or_find?_eq_some_iff hp hothers

theorem namedFirst?_eq_some_iff (hp : ∀ g, p g = true ↔ P g) (name : String) :
    namedFirst? name p fields = some f ↔
      Preferred fields [fun g => g.name = name ∧ P g, P] f := by
  unfold namedFirst?
  rw [List.find?_filter]
  apply or_find?_eq_some_iff
  · intro g
    rw [decide_eq_true_iff, hp, beq_iff_eq, and_comm]
  · exact find?_eq_some_iff_preferred hp

/-! ## The fields of standard methods -/

theorem refersTo_iff (kind : String) (g : Field) : refersTo kind g = true ↔ g.RefersTo kind := by
  simp only [refersTo, Option.any_eq_true, beq_iff_eq]
  rfl

theorem name_iff (name : String) (g : Field) : (g.name == name) = true ↔ g.name = name := beq_iff_eq

/-- A get request names the resource by its type, or else by a name for any type. -/
theorem resourceField?_eq_some_iff :
    resourceField? input kind = some f ↔
      Preferred input.fields
        [fun g => g.name = "name" ∧ g.RefersTo kind, fun g => g.RefersTo kind,
          fun g => g.name = "name" ∧ g.RefersTo "*"] f := by
  unfold resourceField?
  apply or_namedFirst?_eq_some_iff (refersTo_iff kind)
  apply find?_eq_some_iff_preferred
  intro g
  rw [Bool.and_eq_true, name_iff, refersTo_iff]

/-- The parent of a resource is the field that refers to one, or else the one called `parent`. -/
theorem parentField?_eq_some_iff :
    parentField? input kind = some f ↔
      Preferred input.fields [fun g => g.RefersToParentOf kind, fun g => g.name = "parent"] f := by
  unfold parentField? Message.field?
  apply or_find?_eq_some_iff
  · intro g
    simp only [Option.any_eq_true, beq_iff_eq]
    rfl
  · exact find?_eq_some_iff_preferred (name_iff "parent")

/-- A resource is carried by the field of its type, or else by the one that is sent as the body. -/
theorem bodyField?_eq_some_iff {m : Method} {id : String} :
    bodyField? input m id = some f ↔
      Preferred input.fields [fun g => g.HoldsMessage id, fun g => m.pathInfo.body = some g.name] f := by
  unfold bodyField?
  apply or_find?_eq_some_iff
  · intro g
    simp only [Field.isMessage, Bool.and_eq_true, beq_iff_eq]
    rfl
  · cases m.pathInfo.body with
    | none =>
      rw [preferred_cons_iff]
      constructor
      · intro h
        cases h
      · rintro (⟨_, _, _, hnamed, _⟩ | ⟨_, later⟩)
        · cases hnamed
        · cases later
    | some name =>
      apply find?_eq_some_iff_preferred
      intro g
      rw [name_iff, Option.some.injEq, eq_comm]

theorem isFieldMask_iff (g : Field) : isFieldMask g = true ↔ g.HoldsMessage fieldMaskId := by
  simp only [isFieldMask, Field.isMessage, Bool.and_eq_true, beq_iff_eq]
  rfl

end Standard

end ApiModel
