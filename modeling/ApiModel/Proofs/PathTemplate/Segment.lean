import ApiModel.Proofs.PathTemplate.Reading

/-!
# What one piece of a path is read as

A piece is a literal or a variable.  `Spelled` lists the texts of a segment: there are two of a
variable over a single segment, since its pattern may be left out.

* `readVariable_eq_ok_iff` — what may stand between the braces of a variable;
* `readSegment_eq_ok_iff` — one piece is read as a segment if and only if the segment can be read
  and the piece is one of its spellings.
-/

namespace ApiModel

open ApiModel.Text

/-! ## Well-formed segments -/

/-- A name of a field path: something, of ASCII letters, digits and underscores. -/
def IsName (name : String) : Prop := name ≠ "" ∧ ∀ c ∈ name.toList, PathTemplate.isNameChar c = true

/-- A segment of a variable's pattern: something, without slashes and braces. -/
def IsPatternSegment (s : String) : Prop :=
  s ≠ "" ∧ ∀ c ∈ s.toList, c ≠ '/' ∧ c ≠ '\x7b' ∧ c ≠ '\x7d'

structure PathVariable.WellFormed (v : PathVariable) : Prop where
  fieldPath_ne : v.fieldPath ≠ []
  names : ∀ name ∈ v.fieldPath, IsName name
  segments_ne : v.segments ≠ []
  segments : ∀ s ∈ v.segments, IsPatternSegment s

/-- A literal holds no delimiter. -/
def PathSegment.WellFormed : PathSegment → Prop
  | .literal s => s ≠ "" ∧ ∀ c ∈ s.toList, c ≠ '/' ∧ c ≠ '\x7b' ∧ c ≠ '\x7d' ∧ c ≠ ':'
  | .bound v => v.WellFormed

/-! ## Spellings -/

/-- The texts of a segment: its own, and for a variable over a single segment also the text with the
pattern `*` spelled out. -/
inductive PathSegment.Spelled : PathSegment → String → Prop where
  | text (s : PathSegment) : Spelled s s.text
  | long (v : PathVariable) (h : v.isSingle) : Spelled (.bound v) v.longText

namespace PathTemplate

/-! ## Reading a variable -/

theorem map_ofList_pieces_eq_iff (sep : Char) (cs : List Char) (names : List String) :
    (pieces (· == sep) cs).map String.ofList = names ↔
      names ≠ [] ∧ (∀ name ∈ names, sep ∉ name.toList) ∧
        cs = List.intercalate [sep] (names.map String.toList) := by
  have hmap : (pieces (· == sep) cs).map String.ofList = names ↔
      pieces (· == sep) cs = names.map String.toList := by
    constructor
    · rintro rfl
      simp [Function.comp_def]
    · intro h
      simp [h, Function.comp_def]
  rw [hmap, pieces_eq_iff]
  simp

theorem isFieldName_iff {cs : List Char} : isFieldName cs = true ↔ IsName (String.ofList cs) := by
  simp [isFieldName, IsName]

theorem toList_fieldName (v : PathVariable) :
    v.fieldName.toList = List.intercalate ['.'] (v.fieldPath.map String.toList) := by
  simp [PathVariable.fieldName, String.toList_intercalate]

theorem toList_longText (v : PathVariable) :
    v.longText.toList = '\x7b' :: (v.fieldName.toList ++
      '=' :: ("/".intercalate v.segments).toList) ++ ['\x7d'] := by
  simp [PathVariable.longText]

theorem isSingle_iff {v : PathVariable} : v.isSingle ↔ v.segments = PathVariable.anySegment := by
  simp [PathVariable.isSingle]

theorem isPatternSegment_iff {s : String} :
    IsPatternSegment s ↔ '/' ∉ s.toList ∧ (s.toList.isEmpty || s.toList.any isBrace) = false := by
  simp only [IsPatternSegment, Bool.or_eq_false_iff, List.any_eq_false, isBrace]
  constructor
  · rintro ⟨hne, hchars⟩
    exact ⟨fun h => (hchars _ h).1 rfl, by simpa using hne, fun c hc => by simpa using (hchars c hc).2⟩
  · rintro ⟨hslash, hne, hchars⟩
    refine ⟨by simpa using hne, fun c hc => ⟨?_, by simpa using hchars c hc⟩⟩
    rintro rfl
    exact hslash hc

theorem anySegment_isPattern : ∀ s ∈ PathVariable.anySegment, IsPatternSegment s := by
  simp [PathVariable.anySegment, IsPatternSegment]

/-- A pattern is read as its segments; without one the variable is over a single segment. -/
theorem readPattern_eq_ok_iff {piece : List Char} {pattern : Option (List Char)}
    {segments : List String} :
    readPattern piece pattern = .ok segments ↔
      segments ≠ [] ∧ (∀ s ∈ segments, IsPatternSegment s) ∧
        (∀ text ∈ pattern, text = ("/".intercalate segments).toList) ∧
        (pattern = none → segments = PathVariable.anySegment) := by
  cases pattern with
  | none =>
    simp only [readPattern, Except.ok.injEq]
    constructor
    · rintro rfl
      exact ⟨by simp [PathVariable.anySegment], anySegment_isPattern, by simp, fun _ => rfl⟩
    · rintro ⟨-, -, -, h⟩
      exact (h (by simp)).symm
  | some text =>
    have hpieces := map_ofList_pieces_eq_iff '/' text segments
    have hvalid : (pieces (· == '/') text).any (fun s => s.isEmpty || s.any isBrace) =
        ((pieces (· == '/') text).map String.ofList).any
          (fun s => s.toList.isEmpty || s.toList.any isBrace) := by
      simp [List.any_map, Function.comp_def]
    simp only [readPattern, String.toList_intercalate]
    constructor
    · intro h
      split at h
      · simp at h
      · rename_i hplain
        have heq := Except.ok.inj h
        obtain ⟨hne, hfree, htext⟩ := hpieces.1 heq
        rw [hvalid, heq, Bool.not_eq_true, List.any_eq_false] at hplain
        refine ⟨hne, ?_, ?_, by simp⟩
        · intro s hs
          exact isPatternSegment_iff.2 ⟨hfree s hs, by simpa using hplain s hs⟩
        · intro t ht
          obtain rfl : text = t := by simpa using ht
          exact htext
    · rintro ⟨hne, hsegs, htext, -⟩
      have hfree : ∀ s ∈ segments, '/' ∉ s.toList := fun s hs => (isPatternSegment_iff.1 (hsegs s hs)).1
      have heq := hpieces.2 ⟨hne, hfree, htext text rfl⟩
      have hplain : segments.any (fun s => s.toList.isEmpty || s.toList.any isBrace) = false := by
        rw [List.any_eq_false]
        intro s hs
        simpa using (isPatternSegment_iff.1 (hsegs s hs)).2
      rw [hvalid, heq, hplain]
      simp

/-- What stands ahead of an equals sign is the field path, and what stands behind it the pattern. -/
theorem readParts_eq_ok_iff {piece names : List Char} {pattern : Option (List Char)}
    {v : PathVariable} :
    (if (pieces (· == '.') names).all isFieldName then do
        let segments ← readPattern piece pattern
        return { fieldPath := (pieces (· == '.') names).map String.ofList, segments : PathVariable }
      else .error (.invalidFieldPath (String.ofList piece))) = Except.ok v ↔
      (pieces (· == '.') names).all isFieldName = true ∧
        (pieces (· == '.') names).map String.ofList = v.fieldPath ∧
        readPattern piece pattern = .ok v.segments := by
  split
  · rename_i hnames
    simp only [bind_eq_ok_iff, pure, Except.pure, Except.ok.injEq, hnames, true_and]
    constructor
    · rintro ⟨segments, hsegs, rfl⟩
      exact ⟨rfl, hsegs⟩
    · rintro ⟨hpath, hsegs⟩
      exact ⟨v.segments, hsegs, by rw [hpath]⟩
  · rename_i hnames
    simp [hnames]

/-- The names ahead of the first equals sign, and the pattern behind it. -/
theorem readVariable_eq_ok_iff_parts {piece inner : List Char} {v : PathVariable} :
    readVariable piece inner = .ok v ↔ ∃ names pattern,
      inner = names ++ (pattern.map ('=' :: ·)).getD [] ∧ '=' ∉ names ∧
        (pieces (· == '.') names).all isFieldName = true ∧
        (pieces (· == '.') names).map String.ofList = v.fieldPath ∧
        readPattern piece pattern = .ok v.segments := by
  unfold readVariable
  cases hcut : cutFirst '=' inner with
  | none =>
    refine readParts_eq_ok_iff.trans ?_
    have hfree := cutFirst_eq_none.1 hcut
    constructor
    · intro h
      exact ⟨inner, none, by simp, hfree, h⟩
    · rintro ⟨names, pattern, hinner, -, h⟩
      cases pattern with
      | none =>
        obtain rfl : inner = names := by simpa using hinner
        exact h
      | some text => exact absurd (by simp [hinner]) hfree
  | some cut =>
    obtain ⟨names, text⟩ := cut
    refine readParts_eq_ok_iff.trans ?_
    obtain ⟨rfl, hfree⟩ := cutFirst_eq_some.1 hcut
    constructor
    · intro h
      exact ⟨names, some text, by simp, hfree, h⟩
    · rintro ⟨names', pattern, hinner, hfree', h⟩
      cases pattern with
      | none => exact absurd (by simp [← show _ = names' by simpa using hinner]) hfree'
      | some text' =>
        have hcut' := cutFirst_eq_some.2 ⟨hinner, hfree'⟩
        obtain ⟨rfl, rfl⟩ : names = names' ∧ text = text' := by simpa [hcut] using hcut'
        exact h

/-- Names that can be read are the field path that is written with dots. -/
theorem fieldPath_iff {names : List Char} {v : PathVariable} :
    ((pieces (· == '.') names).all isFieldName = true ∧
      (pieces (· == '.') names).map String.ofList = v.fieldPath) ↔
      v.fieldPath ≠ [] ∧ (∀ name ∈ v.fieldPath, IsName name) ∧ names = v.fieldName.toList := by
  have hpieces := map_ofList_pieces_eq_iff '.' names v.fieldPath
  have hall : (pieces (· == '.') names).all isFieldName = true ↔
      ∀ name ∈ (pieces (· == '.') names).map String.ofList, IsName name := by
    simp [isFieldName_iff]
  rw [hall, toList_fieldName]
  constructor
  · rintro ⟨hnames, hpath⟩
    obtain ⟨hne, -, htext⟩ := hpieces.1 hpath
    exact ⟨hne, hpath ▸ hnames, htext⟩
  · rintro ⟨hne, hnames, htext⟩
    have hdot : ∀ name ∈ v.fieldPath, '.' ∉ name.toList := by
      intro name hname hmem
      have := (hnames name hname).2 _ hmem
      simp [isNameChar] at this
    have hpath := hpieces.2 ⟨hne, hdot, htext⟩
    exact ⟨hpath.symm ▸ hnames, hpath⟩

/-- The characters of a dotted field path. -/
theorem fieldName_chars {v : PathVariable} (h : ∀ name ∈ v.fieldPath, IsName name) :
    ∀ c ∈ v.fieldName.toList, isNameChar c = true ∨ c = '.' := by
  intro c hc
  rw [toList_fieldName] at hc
  rcases eq_sep_or_mem_of_mem_intercalate hc with hc | ⟨cs, hcs, hc⟩
  · exact .inr hc
  · obtain ⟨name, hname, rfl⟩ := List.mem_map.1 hcs
    exact .inl ((h name hname).2 c hc)

/-- Between the braces of a variable stand its field path and, behind an equals sign, its pattern;
the pattern of a variable over a single segment may be left out. -/
theorem readVariable_eq_ok_iff {piece inner : List Char} {v : PathVariable} :
    readVariable piece inner = .ok v ↔
      v.WellFormed ∧ (inner = v.fieldName.toList ++ '=' :: ("/".intercalate v.segments).toList ∨
        v.isSingle ∧ inner = v.fieldName.toList) := by
  rw [readVariable_eq_ok_iff_parts]
  constructor
  · rintro ⟨names, pattern, hinner, -, hnames, hpath, hpattern⟩
    obtain ⟨hne, hvalid, rfl⟩ := fieldPath_iff.1 ⟨hnames, hpath⟩
    obtain ⟨hsegs_ne, hsegs, htext, hnone⟩ := readPattern_eq_ok_iff.1 hpattern
    refine ⟨⟨hne, hvalid, hsegs_ne, hsegs⟩, ?_⟩
    cases pattern with
    | none => exact .inr ⟨isSingle_iff.2 (hnone rfl), by simpa using hinner⟩
    | some text =>
      rw [htext text rfl] at hinner
      exact .inl (by simpa using hinner)
  · rintro ⟨hv, hinner⟩
    have hfree : '=' ∉ v.fieldName.toList := by
      intro hmem
      have := fieldName_chars hv.names _ hmem
      simp [isNameChar] at this
    obtain ⟨hnames, hpath⟩ := fieldPath_iff.2 ⟨hv.fieldPath_ne, hv.names, rfl⟩
    cases hinner with
    | inl hlong =>
      refine ⟨_, some _, by simpa using hlong, hfree, hnames, hpath, ?_⟩
      exact readPattern_eq_ok_iff.2 ⟨hv.segments_ne, hv.segments, by simp, by simp⟩
    | inr hshort =>
      refine ⟨_, none, by simpa using hshort.2, hfree, hnames, hpath, ?_⟩
      exact readPattern_eq_ok_iff.2
        ⟨hv.segments_ne, hv.segments, by simp, fun _ => isSingle_iff.1 hshort.1⟩

/-! ## Reading a segment -/

/-- What one piece of a path or of a resource pattern can be read as: a colon is no delimiter here. -/
def IsReadable : PathSegment → Prop
  | .literal s => s ≠ "" ∧ ∀ c ∈ s.toList, isBrace c = false
  | .bound v => v.WellFormed

theorem toList_text_bound (v : PathVariable) :
    (PathSegment.bound v).text.toList = '\x7b' :: (v.fieldName.toList ++
      if v.isSingle then [] else '=' :: ("/".intercalate v.segments).toList) ++ ['\x7d'] := by
  simp only [PathSegment.text, PathVariable.text]
  split <;> simp [PathVariable.longText]

theorem spelled_bound_iff {v : PathVariable} {s : String} :
    (PathSegment.bound v).Spelled s ↔ ∃ inner : List Char,
      s.toList = '\x7b' :: inner ++ ['\x7d'] ∧
        (inner = v.fieldName.toList ++ '=' :: ("/".intercalate v.segments).toList ∨
          v.isSingle ∧ inner = v.fieldName.toList) := by
  constructor
  · intro h
    cases h with
    | text =>
      refine ⟨_, toList_text_bound v, ?_⟩
      split <;> rename_i hsingle
      · exact .inr ⟨hsingle, by simp⟩
      · exact .inl rfl
    | long _ hsingle => exact ⟨_, toList_longText v, .inl rfl⟩
  · rintro ⟨inner, hs, hinner⟩
    by_cases hsingle : v.isSingle
    · cases hinner with
      | inl hlong =>
        obtain rfl : s = v.longText := String.toList_inj.1 (by rw [hs, hlong, toList_longText])
        exact .long v hsingle
      | inr hshort =>
        obtain rfl : s = (PathSegment.bound v).text :=
          String.toList_inj.1 (by rw [hs, hshort.2, toList_text_bound, if_pos hsingle]; simp)
        exact .text _
    · obtain ⟨rfl⟩ | ⟨h, -⟩ := hinner
      · obtain rfl : s = (PathSegment.bound v).text :=
          String.toList_inj.1 (by rw [hs, toList_text_bound, if_neg hsingle])
        exact .text _
      · exact absurd h hsingle

theorem spelled_literal_iff {t s : String} : (PathSegment.literal t).Spelled s ↔ s = t := by
  constructor
  · intro h
    cases h
    rfl
  · rintro rfl
    exact .text (.literal s)

/-- A piece that opens with a brace is a variable, closed by the last character. -/
theorem readSegment_variable {rest : List Char} {segment : PathSegment} :
    readSegment ('\x7b' :: rest) = .ok segment ↔ ∃ v inner, segment = .bound v ∧
      rest = inner ++ ['\x7d'] ∧ readVariable ('\x7b' :: rest) inner = .ok v := by
  rw [readSegment, if_pos rfl]
  cases hahead : ahead? ['\x7d'] rest with
  | none =>
    simp only [reduceCtorEq, false_iff, not_exists, not_and]
    intro v inner _ hrest
    rw [ahead?_eq_some.2 hrest] at hahead
    cases hahead
  | some inner =>
    obtain rfl := ahead?_eq_some.1 hahead
    simp only [map_eq_ok_iff, List.append_left_inj]
    constructor
    · rintro ⟨v, hv, rfl⟩
      exact ⟨v, inner, rfl, rfl, hv⟩
    · rintro ⟨v, _, rfl, rfl, hv⟩
      exact ⟨v, hv, rfl⟩

/-- Any other piece is a literal, if there is no brace in it. -/
theorem readSegment_literal {c : Char} {rest : List Char} {segment : PathSegment}
    (hopen : c ≠ '\x7b') :
    readSegment (c :: rest) = .ok segment ↔
      segment = .literal (String.ofList (c :: rest)) ∧ ∀ x ∈ c :: rest, isBrace x = false := by
  rw [readSegment, if_neg hopen]
  split
  · rename_i hbrace
    simp only [reduceCtorEq, false_iff]
    rintro ⟨-, hfree⟩
    obtain ⟨x, hx, hxb⟩ := List.any_eq_true.1 hbrace
    rw [hfree x hx] at hxb
    cases hxb
  · rename_i hbrace
    rw [Bool.not_eq_true, List.any_eq_false] at hbrace
    constructor
    · intro h
      exact ⟨(Except.ok.inj h).symm, by simpa using hbrace⟩
    · rintro ⟨rfl, -⟩
      rfl

/-- **One piece is read as a segment** if and only if the segment can be read and the piece is one
of its spellings. -/
theorem readSegment_eq_ok_iff {piece : List Char} {segment : PathSegment} :
    readSegment piece = .ok segment ↔
      IsReadable segment ∧ segment.Spelled (String.ofList piece) := by
  cases piece with
  | nil =>
    cases segment with
    | literal s =>
      simp only [readSegment, reduceCtorEq, false_iff, IsReadable, spelled_literal_iff]
      rintro ⟨⟨hne, -⟩, rfl⟩
      exact hne rfl
    | bound v => simp [readSegment, spelled_bound_iff]
  | cons c rest =>
    by_cases hopen : c = '\x7b'
    · subst hopen
      rw [readSegment_variable]
      cases segment with
      | literal s =>
        simp only [reduceCtorEq, false_and, exists_false, false_iff, spelled_literal_iff]
        rintro ⟨⟨-, hbrace⟩, rfl⟩
        have := hbrace '\x7b' (by simp)
        simp [isBrace] at this
      | bound v =>
        simp only [readVariable_eq_ok_iff, spelled_bound_iff, String.toList_ofList, IsReadable]
        constructor
        · rintro ⟨_, inner, heq, rfl, hv, hinner⟩
          obtain rfl := PathSegment.bound.inj heq
          exact ⟨hv, inner, rfl, hinner⟩
        · rintro ⟨hv, inner, hpiece, hinner⟩
          exact ⟨v, inner, rfl, (List.cons.inj hpiece).2, hv, hinner⟩
    · rw [readSegment_literal hopen]
      cases segment with
      | literal s =>
        rw [spelled_literal_iff]
        constructor
        · rintro ⟨h, hfree⟩
          obtain rfl := PathSegment.literal.inj h
          exact ⟨⟨by simp, by simpa using hfree⟩, rfl⟩
        · rintro ⟨⟨-, hfree⟩, rfl⟩
          exact ⟨rfl, by simpa using hfree⟩
      | bound v =>
        simp only [reduceCtorEq, false_and, false_iff, not_and]
        intro _ hspelled
        obtain ⟨inner, hpiece, -⟩ := spelled_bound_iff.1 hspelled
        rw [String.toList_ofList] at hpiece
        exact hopen (List.cons.inj hpiece).1

end PathTemplate

end ApiModel
