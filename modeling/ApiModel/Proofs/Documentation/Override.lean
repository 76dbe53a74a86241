import ApiModel.Proofs.Documentation.Element

/-!
# One documentation override

An override replaces the first occurrence of a text in the documentation of one element.

Principal results:

* `cutAt_eq_some_iff`, `replaceFirst?_eq_some_iff` — the first occurrence of a text, and what replaces it;
* `overrideDocumentation_cases` — an override writes to the element that its ID finds, or is refused;
* `overrideDocumentation_spec` — **an override succeeds if and only if an element has its ID and the text
  occurs in the documentation**; then it replaces the first occurrence there and changes nothing else, and
  otherwise it changes nothing and its defect carries the ID.
-/

namespace ApiModel

open ApiModel.Text

/-! ## The first occurrence of a text -/

namespace Text

variable {part s before after : List Char}

/-- A part that does not stand in front has the first character ahead of it. -/
theorem eq_cons_of_not_isPrefixOf {c : Char} {rest : List Char} (hahead : ¬ part.isPrefixOf (c :: rest))
    (h : c :: rest = before ++ part ++ after) :
    ∃ front, before = c :: front ∧ rest = front ++ part ++ after := by
  cases before with
  | nil => exact absurd (List.isPrefixOf_iff_prefix.2 ⟨after, h.symm⟩) hahead
  | cons d front =>
    obtain ⟨rfl, hrest⟩ := List.cons.inj h
    exact ⟨front, rfl, hrest⟩

/-- The text ahead of a cut is the shortest that the part stands behind. -/
theorem cutAt_eq_some_iff :
    cutAt part s = some (before, after) ↔
      s = before ++ part ++ after ∧ ∀ b a, s = b ++ part ++ a → before.length ≤ b.length := by
  induction s generalizing before with
  | nil =>
    simp only [cutAt, List.isEmpty_iff, List.nil_eq, List.append_eq_nil_iff]
    constructor
    · intro h
      split at h
      · rename_i hpart
        obtain ⟨rfl, rfl⟩ := Prod.mk.inj (Option.some.inj h)
        exact ⟨⟨⟨rfl, hpart⟩, rfl⟩, by simp⟩
      · cases h
    · rintro ⟨⟨⟨rfl, rfl⟩, rfl⟩, -⟩
      rfl
  | cons c rest ih =>
    rw [cutAt]
    split
    · rename_i hprefix
      obtain ⟨tail, htail⟩ := List.isPrefixOf_iff_prefix.1 hprefix
      rw [← htail, List.drop_left, Option.some.injEq, Prod.mk.injEq]
      constructor
      · rintro ⟨rfl, rfl⟩
        exact ⟨rfl, by simp⟩
      · rintro ⟨hs, hfirst⟩
        -- the part stands in front, so what is ahead of it is empty
        obtain rfl := List.length_eq_zero_iff.1 (Nat.le_zero.1 (hfirst [] tail rfl))
        exact ⟨rfl, List.append_cancel_left hs⟩
    · rename_i hprefix
      rw [Option.map_eq_some_iff]
      constructor
      · rintro ⟨⟨front, back⟩, hcut, heq⟩
        obtain ⟨rfl, rfl⟩ := Prod.mk.inj heq
        obtain ⟨hrest, hfirst⟩ := ih.1 hcut
        refine ⟨congrArg (c :: ·) hrest, fun b a hs => ?_⟩
        obtain ⟨b', rfl, hb⟩ := eq_cons_of_not_isPrefixOf hprefix hs
        exact Nat.succ_le_succ (hfirst b' a hb)
      · rintro ⟨hs, hfirst⟩
        obtain ⟨front, rfl, hrest⟩ := eq_cons_of_not_isPrefixOf hprefix hs
        refine ⟨(front, after), ih.2 ⟨hrest, fun b a hb => ?_⟩, rfl⟩
        exact Nat.le_of_succ_le_succ (hfirst (c :: b) a (congrArg (c :: ·) hb))

/-- A text that occurs can be cut at. -/
theorem isSome_cutAt (h : s = before ++ part ++ after) : (cutAt part s).isSome := by
  induction s generalizing before with
  | nil =>
    have hpart : part = [] := by
      rw [List.nil_eq, List.append_eq_nil_iff, List.append_eq_nil_iff] at h
      exact h.1.2
    rw [hpart]
    rfl
  | cons c rest ih =>
    rw [cutAt]
    split
    · rfl
    · rename_i hprefix
      cases before with
      | nil => exact absurd (List.isPrefixOf_iff_prefix.2 ⟨after, h.symm⟩) hprefix
      | cons d front =>
        rw [Option.isSome_map]
        exact ih (List.cons.inj h).2

end Text

/-- The part occurs in the text. -/
def Occurs (part text : String) : Prop := ∃ before after, text = before ++ part ++ after

/-- The texts before and after the first occurrence of a part. -/
structure FirstOccurrence (part text before after : String) : Prop where
  occurs : text = before ++ part ++ after
  first : ∀ b a, text = b ++ part ++ a → before.length ≤ b.length

theorem cutAt_eq_some_iff_firstOccurrence {part text before after : String} :
    cutAt part.toList text.toList = some (before.toList, after.toList) ↔
      FirstOccurrence part text before after := by
  have happend : ∀ b a : String, text.toList = b.toList ++ part.toList ++ a.toList ↔
      text = b ++ part ++ a := by
    intro b a
    rw [← String.toList_inj, String.toList_append, String.toList_append]
  rw [cutAt_eq_some_iff, happend]
  constructor
  · rintro ⟨hoccurs, hfirst⟩
    refine ⟨hoccurs, fun b a h => ?_⟩
    simpa only [String.length_toList] using hfirst b.toList a.toList ((happend b a).2 h)
  · rintro ⟨hoccurs, hfirst⟩
    refine ⟨hoccurs, fun b a h => ?_⟩
    have hle := hfirst (String.ofList b) (String.ofList a) ((happend _ _).1 (by simpa using h))
    rwa [← String.length_toList, ← String.length_toList, String.toList_ofList] at hle

/-- What replaces the first occurrence stands between what was around it. -/
theorem replaceFirst?_eq_some_iff {text part replacement new : String} :
    replaceFirst? text part replacement = some new ↔
      ∃ before after, FirstOccurrence part text before after ∧ new = before ++ replacement ++ after := by
  unfold replaceFirst?
  rw [Option.map_eq_some_iff]
  constructor
  · rintro ⟨⟨before, after⟩, hcut, rfl⟩
    refine ⟨String.ofList before, String.ofList after, ?_, rfl⟩
    rw [← cutAt_eq_some_iff_firstOccurrence, String.toList_ofList, String.toList_ofList, hcut]
  · rintro ⟨before, after, hfirst, rfl⟩
    refine ⟨_, cutAt_eq_some_iff_firstOccurrence.2 hfirst, ?_⟩
    dsimp only
    rw [String.ofList_toList, String.ofList_toList]

theorem isSome_replaceFirst? {text part replacement : String} :
    (replaceFirst? text part replacement).isSome ↔ Occurs part text := by
  constructor
  · intro h
    obtain ⟨new, hnew⟩ := Option.isSome_iff_exists.1 h
    obtain ⟨before, after, hfirst, -⟩ := replaceFirst?_eq_some_iff.1 hnew
    exact ⟨before, after, hfirst.occurs⟩
  · rintro ⟨before, after, rfl⟩
    rw [replaceFirst?, Option.isSome_map]
    exact isSome_cutAt (by rw [String.toList_append, String.toList_append])

/-! ## What an override does -/

namespace Api

variable {api api' : Api} {o : DocumentationOverride} {x : DocumentedElement} {text : String}

/-- An override writes to the element that its ID finds, or it is refused and changes nothing. -/
theorem overrideDocumentation_cases (api : Api) (o : DocumentationOverride) :
    (∃ x doc text, api.registry.element? o.id = some x ∧ api.registry.documentation? x = some doc ∧
        replaceFirst? doc o.text o.replacement = some text ∧
        api.overrideDocumentation o =
          ⟨{ api with registry := api.registry.document text x }, none⟩) ∨
      ((∀ x doc, api.registry.element? o.id = some x → api.registry.documentation? x = some doc →
          replaceFirst? doc o.text o.replacement = none) ∧
        ∃ fault, api.overrideDocumentation o = ⟨api, some (.documentationOverride o.id fault)⟩) := by
  unfold overrideDocumentation
  cases hx : api.registry.element? o.id with
  | none =>
    refine .inr ⟨fun x doc h => ?_, _, rfl⟩
    cases h
  | some x =>
    dsimp only
    cases htext : (api.registry.documentation? x).bind (replaceFirst? · o.text o.replacement) with
    | none =>
      refine .inr ⟨fun y doc hy hdoc => ?_, _, rfl⟩
      obtain rfl := Option.some.inj hy
      rwa [hdoc] at htext
    | some text =>
      obtain ⟨doc, hdoc, hreplaced⟩ := Option.bind_eq_some_iff.1 htext
      exact .inl ⟨x, doc, text, rfl, hdoc, hreplaced, rfl⟩

/-- An override succeeds if it finds an element and there a text to replace. -/
theorem overrideDocumentation_defect_eq_none_iff :
    (api.overrideDocumentation o).defect = none ↔
      ∃ x doc, api.registry.element? o.id = some x ∧ api.registry.documentation? x = some doc ∧
        (replaceFirst? doc o.text o.replacement).isSome := by
  rcases api.overrideDocumentation_cases o with
    ⟨x, doc, text, hx, hdoc, htext, hrun⟩ | ⟨hnone, fault, hrun⟩
  · rw [hrun]
    exact iff_of_true rfl ⟨x, doc, hx, hdoc, by rw [htext]; rfl⟩
  · rw [hrun]
    refine iff_of_false (by simp) ?_
    rintro ⟨x, doc, hx, hdoc, hsome⟩
    rw [hnone x doc hx hdoc] at hsome
    cases hsome

/-- A refused override changes nothing, and the defect carries its ID. -/
theorem overrideDocumentation_refused {d : Defect} (h : (api.overrideDocumentation o).defect = some d) :
    (api.overrideDocumentation o).state = api ∧ ∃ fault, d = .documentationOverride o.id fault := by
  rcases api.overrideDocumentation_cases o with ⟨x, doc, text, -, -, -, hrun⟩ | ⟨-, fault, hrun⟩
  · rw [hrun] at h
    cases h
  · rw [hrun] at h ⊢
    exact ⟨rfl, fault, (Option.some.inj h).symm⟩

/-- The one model has the text as the documentation of an element, and is otherwise the other model. -/
structure Redocumented (api : Api) (x : DocumentedElement) (text : String) (api' : Api) : Prop where
  here : api'.registry.documentation? x = some text
  elsewhere : ∀ y, y ≠ x → api'.registry.documentation? y = api.registry.documentation? y
  rest : api'.undocumented = api.undocumented

theorem redocumented_document {doc : String} (h : api.registry.documentation? x = some doc)
    (text : String) :
    api.Redocumented x text { api with registry := api.registry.document text x } where
  here := by rw [Registry.documentation?_document_self, h, Option.map_some]
  elsewhere := fun _ hy => Registry.documentation?_document_of_ne hy
  rest := by
    unfold undocumented
    rw [Registry.undocumented_document]

/-- **An override succeeds if and only if some element has its ID and the text occurs in its documentation.**
Then it replaces the first occurrence in the documentation of that element and changes nothing else; a refused
override changes nothing, and the defect carries its ID. -/
theorem overrideDocumentation_spec (h : api.registry.Identified) (o : DocumentationOverride) :
    ((api.overrideDocumentation o).defect = none ↔
      ∃ x doc, api.registry.idOf? x = some o.id ∧ api.registry.documentation? x = some doc ∧
        Occurs o.text doc) ∧
    (∀ x doc, api.registry.idOf? x = some o.id → api.registry.documentation? x = some doc →
      Occurs o.text doc → ∃ before after, FirstOccurrence o.text doc before after ∧
        api.Redocumented x (before ++ o.replacement ++ after) (api.overrideDocumentation o).state) ∧
    ∀ d, (api.overrideDocumentation o).defect = some d →
      (api.overrideDocumentation o).state = api ∧ ∃ fault, d = .documentationOverride o.id fault := by
  refine ⟨?_, fun x doc hx hdoc hoccurs => ?_, fun d hd => overrideDocumentation_refused hd⟩
  · simp only [overrideDocumentation_defect_eq_none_iff, h.element?_eq_some_iff,
      isSome_replaceFirst?]
  · rw [← h.element?_eq_some_iff] at hx
    rcases api.overrideDocumentation_cases o with
      ⟨y, old, text, hy, hold, htext, hrun⟩ | ⟨hnone, -⟩
    · obtain rfl := Option.some.inj (hx.symm.trans hy)
      obtain rfl := Option.some.inj (hdoc.symm.trans hold)
      obtain ⟨before, after, hfirst, rfl⟩ := replaceFirst?_eq_some_iff.1 htext
      rw [hrun]
      exact ⟨before, after, hfirst, redocumented_document hdoc _⟩
    · have hsome : (replaceFirst? doc o.text o.replacement).isSome :=
        isSome_replaceFirst?.2 hoccurs
      rw [hnone x doc hx hdoc] at hsome
      cases hsome

/-- A model with an element of each kind; a value and a message are documented. -/
def handbook : Api :=
  let thing := (Message.new "Thing" "v1" none).addField { name := "name", jsonName := "name" }
  let thing := { thing with documentation := "A [Thing][v1.Thing]." }
  let state := (Enumeration.new "State" "v1" none).addValue "UNKNOWN" 0
  let active : EnumValue :=
    { name := "ACTIVE", id := ".v1.State.ACTIVE", number := 1, documentation := "Active. Active." }
  let things := Service.new "Things" "v1"
  ((({ name := "things", package := "v1" } : Api).addMessage thing).addEnum
    { state with values := state.values ++ [active] }).addService things
      [.new things "GetThing" ".v1.Thing" ".v1.Thing"]

theorem overrideDocumentation_spec_handbook :
    let active : DocumentationOverride :=
      { id := ".v1.State.ACTIVE", text := "Active.", replacement := "In use." }
    let absent : DocumentationOverride := { id := ".v1.Thing", text := "State", replacement := "state" }
    handbook.registry.Identified ∧ (handbook.overrideDocumentation active).defect = none ∧
      handbook.Redocumented (.value ".v1.State" 1) "In use. Active."
        (handbook.overrideDocumentation active).state ∧
      (handbook.overrideDocumentation absent).defect =
        some (.documentationOverride ".v1.Thing" (.textNotFound "State")) ∧
      (handbook.overrideDocumentation absent).state = handbook := by
  intro active absent
  have hidentified : handbook.registry.Identified := by decide +kernel
  obtain ⟨hsucceeds, hreplaces, -⟩ := overrideDocumentation_spec hidentified active
  have hx : handbook.registry.idOf? (.value ".v1.State" 1) = some active.id := by decide +kernel
  have hdoc : handbook.registry.documentation? (.value ".v1.State" 1) = some "Active. Active." := by
    decide +kernel
  have hoccurs : Occurs active.text "Active. Active." := ⟨"", " Active.", by decide⟩
  obtain ⟨before, after, -, hactive⟩ := hreplaces _ _ hx hdoc hoccurs
  have htext : before ++ active.replacement ++ after = "In use. Active." := by
    have hhere := hactive.here
    rw [show (handbook.overrideDocumentation active).state.registry.documentation?
      (.value ".v1.State" 1) = some "In use. Active." by decide +kernel] at hhere
    exact (Option.some.inj hhere).symm
  have habsent : (handbook.overrideDocumentation absent).defect =
      some (.documentationOverride ".v1.Thing" (.textNotFound "State")) := by decide +kernel
  refine ⟨hidentified, hsucceeds.2 ⟨_, _, hx, hdoc, hoccurs⟩, htext ▸ hactive, habsent, ?_⟩
  exact ((overrideDocumentation_spec hidentified absent).2.2 _ habsent).1

end Api

end ApiModel
