import ApiModel.Model.Api

/-!
# Samples

Which enumeration values and which members of a one-of stand for the others in samples, and which
values of an enumeration name its numbers.

Principal statements: `firstLeast_mem` and `firstLeast_eq_none_iff` — a least element is an element,
and only the empty list has none.
-/

namespace ApiModel

/-- The first of the elements with the least rank. -/
def firstLeast {α : Type} (rank : α → Nat) : List α → Option α
  | [] => none
  | a :: rest =>
    match firstLeast rank rest with
    | none => some a
    | some b => if rank b < rank a then some b else some a

theorem firstLeast_eq_none_iff {α : Type} {rank : α → Nat} {as : List α} :
    firstLeast rank as = none ↔ as = [] := by
  cases as with
  | nil => simp [firstLeast]
  | cons a rest =>
    simp only [firstLeast]
    split
    · simp
    · split <;> simp

theorem firstLeast_mem {α : Type} {rank : α → Nat} {as : List α} {a : α}
    (h : firstLeast rank as = some a) : a ∈ as := by
  induction as generalizing a with
  | nil => simp [firstLeast] at h
  | cons b rest ih =>
    simp only [firstLeast] at h
    split at h
    · simp_all
    · next c hc =>
      split at h
      · obtain rfl := Option.some.inj h
        exact List.mem_cons_of_mem _ (ih hc)
      · simp_all

namespace EnumValue

/-- The first value with each number, in order; `seen` holds the numbers of earlier values. -/
def firsts (seen : List Int) : List EnumValue → List EnumValue
  | [] => []
  | v :: rest =>
    if v.number ∈ seen then firsts seen rest else v :: firsts (v.number :: seen) rest

/-- The values that samples show: not deprecated and not zero, else not zero, else all. -/
def examples (values : List EnumValue) : List EnumValue :=
  let nonZero := values.filter (·.number != 0)
  let current := nonZero.filter (!·.deprecated)
  if !current.isEmpty then current else if !nonZero.isEmpty then nonZero else values

end EnumValue

/-- Fills in the sample values of an enumeration. -/
def Enumeration.withSamples (e : Enumeration) : Enumeration :=
  { e with
    uniqueNumberValues := (EnumValue.firsts [] e.values).map (·.name)
    valuesForExamples := (EnumValue.examples e.values).map (·.name) }

namespace OneOf

/-- How unfit a member is to be shown: deprecated fields last, before them maps, repeated fields and
messages. -/
def rank (f : Field) : Nat :=
  8 * f.deprecated.toNat + 4 * f.isMap.toNat + 2 * f.repeated.toNat + f.isMessage.toNat

/-- The member that samples show. -/
def example? (o : OneOf) (fields : List Field) : Option Field :=
  firstLeast rank (fields.filter (o.fields.contains ·.id))

end OneOf

/-- Fills in the sample members of a message's one-ofs. -/
def Message.withSamples (m : Message) : Message :=
  { m with oneOfs := m.oneOfs.map fun o =>
      { o with exampleField := (o.example? m.fields).map (·.id) } }

end ApiModel
