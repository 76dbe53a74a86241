/-!
# Pieces of a text

Cutting a text at separators, at the first or the last occurrence of a character, and at the first
occurrence of another text.  All functions work on lists of characters.

Principal statements: `intercalate_pieces` — the pieces between the occurrences of one character,
joined by it, are the text —, `pieces_eq_iff`, which says so both ways, and `cutFirst_eq_some`,
`cutLast_eq_some`, which read a cut back.
-/

namespace ApiModel.Text

/-- The pieces between separators: `n` separators leave `n + 1` pieces, empty ones included. -/
def pieces (isSep : Char → Bool) : List Char → List (List Char)
  | [] => [[]]
  | c :: rest =>
    if isSep c then [] :: pieces isSep rest
    else
      match pieces isSep rest with
      | [] => [[c]]
      | piece :: more => (c :: piece) :: more

/-- The text before and after the first occurrence of `sep`. -/
def cutFirst (sep : Char) : List Char → Option (List Char × List Char)
  | [] => none
  | c :: rest =>
    if c = sep then some ([], rest)
    else (cutFirst sep rest).map fun cut => (c :: cut.1, cut.2)

/-- The text before and after the last occurrence of `sep`. -/
def cutLast (sep : Char) (s : List Char) : Option (List Char × List Char) :=
  (cutFirst sep s.reverse).map fun cut => (cut.2.reverse, cut.1.reverse)

/-- The text behind `front`, if it begins with it. -/
def behind? (front : List Char) (s : List Char) : Option (List Char) :=
  if front.isPrefixOf s then some (s.drop front.length) else none

/-- The text ahead of `back`, if it ends with it. -/
def ahead? (back : List Char) (s : List Char) : Option (List Char) :=
  if back.isSuffixOf s then some (s.take (s.length - back.length)) else none

/-- The text before and after the first occurrence of `part`; the empty part occurs in front. -/
def cutAt (part : List Char) : List Char → Option (List Char × List Char)
  | [] => if part.isEmpty then some ([], []) else none
  | c :: rest =>
    if part.isPrefixOf (c :: rest) then some ([], (c :: rest).drop part.length)
    else (cutAt part rest).map fun cut => (c :: cut.1, cut.2)

theorem pieces_ne_nil (isSep : Char → Bool) (s : List Char) : pieces isSep s ≠ [] := by
  cases s with
  | nil => simp [pieces]
  | cons c rest =>
    simp only [pieces]
    split
    · simp
    · split <;> simp

/-- **Joining the pieces gives the text back.** -/
theorem intercalate_pieces (sep : Char) (s : List Char) :
    List.intercalate [sep] (pieces (· == sep) s) = s := by
  induction s with
  | nil => rfl
  | cons c rest ih =>
    cases h : pieces (· == sep) rest with
    | nil => exact absurd h (pieces_ne_nil _ _)
    | cons piece more =>
      rw [h] at ih
      by_cases hc : c = sep
      · subst hc
        simp [pieces, h, List.intercalate_cons_cons, ih]
      · cases more <;> simp_all [pieces, List.intercalate_cons_cons]

theorem mem_pieces_no_sep {isSep : Char → Bool} {s piece : List Char}
    (h : piece ∈ pieces isSep s) : ∀ c ∈ piece, isSep c = false := by
  induction s generalizing piece with
  | nil => simp [pieces] at h; simp [h]
  | cons c rest ih =>
    simp only [pieces] at h
    split at h
    · rcases List.mem_cons.1 h with rfl | h
      · simp
      · exact ih h
    · next hc =>
      split at h
      · next hn => exact absurd hn (pieces_ne_nil _ _)
      · next first more hp =>
        rcases List.mem_cons.1 h with rfl | h
        · intro x hx
          rcases List.mem_cons.1 hx with rfl | hx
          · simpa using hc
          · exact ih (by rw [hp]; simp) x hx
        · exact ih (by rw [hp]; simp [h])

/-- A text ahead of the first separator is the first piece. -/
theorem pieces_append_cons {sep : Char} {front : List Char} (h : sep ∉ front) (s : List Char) :
    pieces (· == sep) (front ++ sep :: s) = front :: pieces (· == sep) s := by
  induction front with
  | nil => simp [pieces]
  | cons c rest ih =>
    have hc : c ≠ sep := fun hc => h (by simp [hc])
    have hrest : sep ∉ rest := fun hmem => h (by simp [hmem])
    simp [pieces, hc, ih hrest]

theorem pieces_of_no_sep {sep : Char} {s : List Char} (h : sep ∉ s) :
    pieces (· == sep) s = [s] := by
  induction s with
  | nil => rfl
  | cons c rest ih =>
    have hc : c ≠ sep := fun hc => h (by simp [hc])
    have hrest : sep ∉ rest := fun hmem => h (by simp [hmem])
    simp [pieces, hc, ih hrest]

theorem pieces_intercalate {sep : Char} {ps : List (List Char)} (hne : ps ≠ [])
    (h : ∀ p ∈ ps, sep ∉ p) : pieces (· == sep) (List.intercalate [sep] ps) = ps := by
  induction ps with
  | nil => exact absurd rfl hne
  | cons p rest ih =>
    have hp : sep ∉ p := h p (by simp)
    cases rest with
    | nil => rw [List.intercalate_singleton, pieces_of_no_sep hp]
    | cons q rest =>
      have hrest := ih (by simp) fun x hx => h x (by simp [hx])
      rw [List.intercalate_cons_cons, List.append_assoc, List.singleton_append,
        pieces_append_cons hp, hrest]

/-- A joined text has the characters of its parts, and separators. -/
theorem eq_sep_or_mem_of_mem_intercalate {sep c : Char} {ps : List (List Char)}
    (h : c ∈ List.intercalate [sep] ps) : c = sep ∨ ∃ p ∈ ps, c ∈ p := by
  induction ps with
  | nil => simp at h
  | cons p rest ih =>
    cases rest with
    | nil => exact .inr ⟨p, by simp, by simpa using h⟩
    | cons q rest =>
      rw [List.intercalate_cons_cons, List.append_assoc, List.mem_append] at h
      rcases h with h | h
      · exact .inr ⟨p, by simp, h⟩
      · rcases List.mem_cons.1 h with h | h
        · exact .inl h
        · rcases ih h with h | ⟨r, hr, hc⟩
          · exact .inl h
          · exact .inr ⟨r, List.mem_cons_of_mem _ hr, hc⟩

/-- **The pieces of a text** are the separator-free texts that make it up when joined. -/
theorem pieces_eq_iff {sep : Char} {s : List Char} {ps : List (List Char)} :
    pieces (· == sep) s = ps ↔
      ps ≠ [] ∧ (∀ p ∈ ps, sep ∉ p) ∧ s = List.intercalate [sep] ps := by
  constructor
  · rintro rfl
    refine ⟨pieces_ne_nil _ _, ?_, (intercalate_pieces sep s).symm⟩
    intro p hp hsep
    have := mem_pieces_no_sep hp sep hsep
    simp at this
  · rintro ⟨hne, hfree, rfl⟩
    exact pieces_intercalate hne hfree

theorem cutFirst_eq_some {sep : Char} {s before after : List Char} :
    cutFirst sep s = some (before, after) ↔ s = before ++ sep :: after ∧ sep ∉ before := by
  induction s generalizing before with
  | nil => simp [cutFirst]
  | cons c rest ih =>
    simp only [cutFirst]
    split
    · next h =>
      subst h
      cases before with
      | nil => simp
      | cons d before => simp; grind
    · next h =>
      cases before with
      | nil => simp; grind
      | cons d before => simp [Option.map_eq_some_iff, ih]; grind

theorem cutFirst_eq_none {sep : Char} {s : List Char} : cutFirst sep s = none ↔ sep ∉ s := by
  induction s with
  | nil => simp [cutFirst]
  | cons c rest ih =>
    unfold cutFirst
    split
    · next h => simp [h]
    · next h => simp [ih, Ne.symm h]

theorem ahead?_eq_some {back s front : List Char} :
    ahead? back s = some front ↔ s = front ++ back := by
  unfold ahead?
  split
  · next h =>
    obtain ⟨t, rfl⟩ := List.isSuffixOf_iff_suffix.1 h
    simp [eq_comm]
  · next h =>
    simp only [reduceCtorEq, false_iff]
    rintro rfl
    simp at h

theorem cutLast_eq_some {sep : Char} {s before after : List Char} :
    cutLast sep s = some (before, after) ↔ s = before ++ sep :: after ∧ sep ∉ after := by
  constructor
  · intro h
    obtain ⟨⟨x, y⟩, hcut, heq⟩ := Option.map_eq_some_iff.1 h
    obtain ⟨hs, hx⟩ := cutFirst_eq_some.1 hcut
    obtain ⟨rfl, rfl⟩ : y.reverse = before ∧ x.reverse = after := by simpa using heq
    have hs' := congrArg List.reverse hs
    simp only [List.reverse_reverse, List.reverse_append, List.reverse_cons, List.append_assoc,
      List.singleton_append] at hs'
    exact ⟨by simpa using hs', by simpa using hx⟩
  · rintro ⟨rfl, h⟩
    simp [cutLast, cutFirst_eq_some.2 (⟨rfl, by simpa using h⟩ :
      after.reverse ++ sep :: before.reverse = after.reverse ++ sep :: before.reverse ∧ _)]

end ApiModel.Text
