import ApiModel.Proofs.PathTemplate.Segment

/-!
# Path templates are read back as they are written

`parse` and `text` undo each other, up to the one spelling that `text` does not choose: the pattern
of a variable over a single segment.

Principal results:

* `readSegments_eq_ok_iff` — segments are read from their spellings, joined by slashes;
* `parse_spec` — a text is read as a template if and only if the template is well-formed and the
  text is one of its spellings, the written one among them.
-/

namespace ApiModel

open ApiModel.Text

structure PathTemplate.WellFormed (t : PathTemplate) : Prop where
  segments_ne : t.segments ≠ []
  segments : ∀ s ∈ t.segments, s.WellFormed
  verb : ∀ verb ∈ t.verb,
    verb ≠ "" ∧ ∀ c ∈ verb.toList, c ≠ '/' ∧ c ≠ '\x7b' ∧ c ≠ '\x7d' ∧ c ≠ ':'

/-- A text of a template: a slash before a spelling of each segment, a colon before the verb. -/
def PathTemplate.Spelled (t : PathTemplate) (s : String) : Prop :=
  ∃ spellings, List.Forall₂ PathSegment.Spelled t.segments spellings ∧
    s = String.join (spellings.map ("/" ++ ·)) ++ verbText t.verb

namespace PathTemplate

/-! ## Reading a list of segments -/

theorem wellFormed_iff {segment : PathSegment} :
    segment.WellFormed ↔ IsReadable segment ∧
      ∀ s, segment = .literal s → ∀ c ∈ s.toList, c ≠ '/' ∧ c ≠ ':' := by
  cases segment with
  | bound v => simp [PathSegment.WellFormed, IsReadable]
  | literal s =>
    simp only [PathSegment.WellFormed, IsReadable, isBrace, PathSegment.literal.injEq]
    constructor
    · rintro ⟨hne, hfree⟩
      refine ⟨⟨hne, fun c hc => ?_⟩, ?_⟩
      · simpa using ⟨(hfree c hc).2.1, (hfree c hc).2.2.1⟩
      · rintro _ rfl c hc
        exact ⟨(hfree c hc).1, (hfree c hc).2.2.2⟩
    · rintro ⟨⟨hne, hbrace⟩, hfree⟩
      refine ⟨hne, fun c hc => ?_⟩
      obtain ⟨hopen, hclose⟩ := ne_of_not_brace (hbrace c hc)
      obtain ⟨hslash, hcolon⟩ := hfree s rfl c hc
      exact ⟨hslash, hopen, hclose, hcolon⟩

/-- There is no brace between the braces of a variable. -/
theorem no_brace_inside {v : PathVariable} (hv : v.WellFormed) {inner : List Char}
    (hinner : inner = v.fieldName.toList ++ '=' :: ("/".intercalate v.segments).toList ∨
      v.isSingle ∧ inner = v.fieldName.toList) : ∀ c ∈ inner, isBrace c = false := by
  have hname : ∀ c ∈ v.fieldName.toList, isBrace c = false := by
    intro c hc
    rcases fieldName_chars hv.names c hc with hc | rfl
    · have hopen : c ≠ '\x7b' := by rintro rfl; simp [isNameChar] at hc
      have hclose : c ≠ '\x7d' := by rintro rfl; simp [isNameChar] at hc
      simpa [isBrace] using ⟨hopen, hclose⟩
    · rfl
  rcases hinner with rfl | ⟨-, rfl⟩
  · intro c hc
    rw [List.mem_append, List.mem_cons] at hc
    rcases hc with hc | rfl | hc
    · exact hname c hc
    · rfl
    · rw [String.toList_intercalate] at hc
      rcases eq_sep_or_mem_of_mem_intercalate hc with rfl | ⟨cs, hcs, hc⟩
      · rfl
      · obtain ⟨s, hs, rfl⟩ := List.mem_map.1 hcs
        simpa [isBrace] using ((hv.segments s hs).2 c hc).2
  · exact hname

/-- A spelling has its braces fit together, and outside of them stand a literal's characters. -/
theorem enclosed_spelled {ok : Char → Bool} {segment : PathSegment} {x : String}
    (hread : IsReadable segment) (hx : segment.Spelled x) :
    Enclosed ok 0 x.toList ↔ ∀ s, segment = .literal s → ∀ c ∈ s.toList, ok c = true := by
  cases segment with
  | literal s =>
    obtain rfl := spelled_literal_iff.1 hx
    rw [enclosed_of_no_brace hread.2]
    simp
  | bound v =>
    obtain ⟨inner, hinner, hshape⟩ := spelled_bound_iff.1 hx
    rw [hinner]
    have henc : Enclosed ok 0 _ := enclosed_braces (no_brace_inside hread hshape)
    exact iff_of_true henc (by simp)

/-- What stands outside of braces in the spellings of segments is what the literals hold. -/
theorem enclosed_spellings (ok : Char → Bool) {segments : List PathSegment} {xs : List String}
    (hread : ∀ seg ∈ segments, IsReadable seg) (hxs : List.Forall₂ PathSegment.Spelled segments xs) :
    (∀ x ∈ xs, Enclosed ok 0 x.toList) ↔
      ∀ s, .literal s ∈ segments → ∀ c ∈ s.toList, ok c = true := by
  induction hxs with
  | nil => simp
  | @cons seg x segments xs hx hxs ih =>
    have hrest := ih fun seg hseg => hread seg (by simp [hseg])
    rw [List.forall_mem_cons, enclosed_spelled (hread seg (by simp)) hx, hrest]
    constructor
    · rintro ⟨hseg, hsegs⟩ s hs
      rcases List.mem_cons.1 hs with heq | hs
      · exact hseg s heq.symm
      · exact hsegs s hs
    · intro h
      exact ⟨fun s hs => h s (by simp [hs]), fun s hs => h s (by simp [hs])⟩

/-- Segments are read from their spellings, joined by slashes that their literals do not hold. -/
theorem readSegments_eq_ok_iff {path : List Char} {segments : List PathSegment} :
    readSegments path = .ok segments ↔
      segments ≠ [] ∧ (∀ seg ∈ segments, IsReadable seg) ∧
        (∀ s, .literal s ∈ segments → '/' ∉ s.toList) ∧
        ∃ xs, List.Forall₂ PathSegment.Spelled segments xs ∧
          path = List.intercalate ['/'] (xs.map String.toList) := by
  have hpass : ∀ xs : List String,
      List.Forall₂ (fun p seg => readSegment p = .ok seg) (xs.map String.toList) segments ↔
        (∀ seg ∈ segments, IsReadable seg) ∧ List.Forall₂ PathSegment.Spelled segments xs := by
    intro xs
    rw [List.forall₂_map_left_iff, ← List.forall₂_and_left]
    simp only [readSegment_eq_ok_iff, String.ofList_toList]
    exact ⟨List.Forall₂.flip, List.Forall₂.flip⟩
  have hslash : ∀ xs, (∀ seg ∈ segments, IsReadable seg) →
      List.Forall₂ PathSegment.Spelled segments xs →
      ((∀ p ∈ xs.map String.toList, Enclosed (· != '/') 0 p) ↔
        ∀ s, .literal s ∈ segments → '/' ∉ s.toList) := by
    intro xs hread hxs
    have := enclosed_spellings (· != '/') hread hxs
    simp only [List.forall_mem_map, this, bne_iff_ne, ne_eq]
    exact ⟨fun h s hs hmem => h s hs _ hmem rfl, fun h s hs c hc heq => h s hs (heq ▸ hc)⟩
  unfold readSegments
  rw [bind_eq_ok_iff]
  simp only [mapM_eq_ok_iff, splitSegments_eq_ok_iff]
  constructor
  · rintro ⟨ps, ⟨hne, henc, rfl⟩, hps⟩
    obtain ⟨xs, rfl⟩ : ∃ xs : List String, ps = xs.map String.toList :=
      ⟨ps.map String.ofList, by simp [Function.comp_def]⟩
    obtain ⟨hread, hxs⟩ := (hpass xs).1 hps
    refine ⟨?_, hread, (hslash xs hread hxs).1 henc, xs, hxs, rfl⟩
    rintro rfl
    obtain rfl := List.forall₂_nil_left_iff.1 hxs
    exact hne rfl
  · rintro ⟨hne, hread, hfree, xs, hxs, rfl⟩
    refine ⟨_, ⟨?_, (hslash xs hread hxs).2 hfree, rfl⟩, (hpass xs).2 ⟨hread, hxs⟩⟩
    intro hnil
    obtain rfl : xs = [] := List.map_eq_nil_iff.1 hnil
    exact hne (List.forall₂_nil_right_iff.1 hxs)

/-! ## Reading a template -/

/-- A slash before each text is a slash in front of the texts joined by slashes. -/
theorem toList_join_slashes {xs : List String} (hne : xs ≠ []) :
    (String.join (xs.map ("/" ++ ·))).toList =
      '/' :: List.intercalate ['/'] (xs.map String.toList) := by
  induction xs with
  | nil => exact absurd rfl hne
  | cons x rest ih =>
    cases rest with
    | nil => simp [String.join_cons]
    | cons y rest =>
      have hrest := ih (by simp)
      rw [List.map_cons, String.join_cons, String.toList_append, hrest]
      simp [List.intercalate_cons_cons]

theorem toList_verbText (verb : Option String) :
    (verbText verb).toList = verbChars (verb.map String.toList) := by
  cases verb <;> simp [verbText, verbChars]

theorem isPlain_iff {s : String} :
    IsPlain s.toList ↔
      s ≠ "" ∧ ∀ c ∈ s.toList, c ≠ '/' ∧ c ≠ '\x7b' ∧ c ≠ '\x7d' ∧ c ≠ ':' := by
  simp [IsPlain, isDelimiter, and_assoc]

/-- The characters of a template are a slash, its segments and its verb. -/
theorem readTemplate_eq_ok_iff {cs : List Char} {t : PathTemplate} :
    readTemplate cs = .ok t ↔ ∃ path,
      cs = '/' :: (path ++ verbChars (t.verb.map String.toList)) ∧ Enclosed (· != ':') 0 path ∧
        (∀ verb ∈ t.verb, IsPlain verb.toList) ∧ readSegments path = .ok t.segments := by
  constructor
  · intro h
    unfold readTemplate at h
    split at h
    · rename_i rest
      obtain ⟨⟨path, verb⟩, hsplit, hread⟩ := bind_eq_ok_iff.1 h
      obtain ⟨segments, hsegs, ht⟩ := bind_eq_ok_iff.1 hread
      obtain ⟨henc, hverb, rfl⟩ := splitVerb_eq_ok_iff.1 hsplit
      obtain rfl := Except.ok.inj ht
      refine ⟨path, ?_, henc, ?_, hsegs⟩
      · cases verb <;> simp
      · intro v hv
        obtain ⟨cs, hcs, rfl⟩ := Option.map_eq_some_iff.1 hv
        simpa using hverb cs hcs
    · simp at h
  · rintro ⟨path, rfl, henc, hverb, hsegs⟩
    have hsplit : splitVerb 0 (path ++ verbChars (t.verb.map String.toList)) =
        .ok (path, t.verb.map String.toList) := by
      refine splitVerb_eq_ok_iff.2 ⟨henc, ?_, rfl⟩
      intro v hv
      obtain ⟨verb, hmem, rfl⟩ := Option.map_eq_some_iff.1 hv
      exact hverb verb hmem
    rw [readTemplate, hsplit]
    refine bind_eq_ok_iff.2 ⟨_, rfl, bind_eq_ok_iff.2 ⟨_, hsegs, ?_⟩⟩
    have hback : (t.verb.map String.toList).map String.ofList = t.verb := by
      cases t.verb <;> simp
    rw [hback]
    rfl

/-- A template is well-formed when its verb is plain, its segments can be read, and its literals
hold neither of the characters that part a template. -/
theorem wellFormed_template_iff {t : PathTemplate} :
    t.WellFormed ↔ t.segments ≠ [] ∧ (∀ verb ∈ t.verb, IsPlain verb.toList) ∧
      (∀ seg ∈ t.segments, IsReadable seg) ∧
      (∀ s, .literal s ∈ t.segments → '/' ∉ s.toList) ∧
      (∀ s, .literal s ∈ t.segments → ∀ c ∈ s.toList, (c != ':') = true) := by
  simp only [isPlain_iff, bne_iff_ne]
  constructor
  · intro ht
    have hsegs := fun seg hseg => wellFormed_iff.1 (ht.segments seg hseg)
    refine ⟨ht.segments_ne, ht.verb, fun seg hseg => (hsegs seg hseg).1, ?_, ?_⟩
    · intro s hs hmem
      exact ((hsegs _ hs).2 s rfl _ hmem).1 rfl
    · intro s hs c hc
      exact ((hsegs _ hs).2 s rfl c hc).2
  · rintro ⟨hne, hverb, hread, hslash, hcolon⟩
    refine ⟨hne, fun seg hseg => wellFormed_iff.2 ⟨hread seg hseg, ?_⟩, hverb⟩
    rintro s rfl c hc
    refine ⟨?_, hcolon s hseg c hc⟩
    rintro rfl
    exact hslash s hseg hc

/-- A text is read as a template if and only if the template is well-formed and the text is one of
its spellings. -/
theorem parse_eq_ok_iff (s : String) (t : PathTemplate) :
    parse s = .ok t ↔ t.WellFormed ∧ t.Spelled s := by
  unfold parse
  rw [mapError_eq_ok_iff, readTemplate_eq_ok_iff, wellFormed_template_iff]
  simp only [readSegments_eq_ok_iff]
  have hcolon : ∀ {xs}, (∀ seg ∈ t.segments, IsReadable seg) →
      List.Forall₂ PathSegment.Spelled t.segments xs → t.segments ≠ [] →
      (Enclosed (· != ':') 0 (List.intercalate ['/'] (xs.map String.toList)) ↔
        ∀ s, .literal s ∈ t.segments → ∀ c ∈ s.toList, (c != ':') = true) := by
    intro xs hread hxs hne
    have hne' : xs.map String.toList ≠ [] := by
      intro hnil
      obtain rfl := List.map_eq_nil_iff.1 hnil
      exact hne (List.forall₂_nil_right_iff.1 hxs)
    have hsome := (enclosed_spellings (fun _ => true) hread hxs).2 (by simp)
    rw [enclosed_intercalate (by decide) (by decide) hne' (by simpa using hsome),
      ← enclosed_spellings _ hread hxs]
    simp
  constructor
  · rintro ⟨path, hs, henc, hverb, hne, hread, hslash, xs, hxs, rfl⟩
    have hxs_ne : xs ≠ [] := by
      rintro rfl
      exact hne (List.forall₂_nil_right_iff.1 hxs)
    refine ⟨⟨hne, hverb, hread, hslash, (hcolon hread hxs hne).1 henc⟩, xs, hxs, ?_⟩
    apply String.toList_inj.1
    rw [hs, String.toList_append, toList_join_slashes hxs_ne, toList_verbText, List.cons_append]
  · rintro ⟨⟨hne, hverb, hread, hslash, hfree⟩, xs, hxs, rfl⟩
    have hxs_ne : xs ≠ [] := by
      rintro rfl
      exact hne (List.forall₂_nil_right_iff.1 hxs)
    refine ⟨_, ?_, (hcolon hread hxs hne).2 hfree, hverb, hne, hread, hslash, xs, hxs, rfl⟩
    rw [String.toList_append, toList_join_slashes hxs_ne, toList_verbText, List.cons_append]

/-- What `text` writes is one of the spellings. -/
theorem spelled_text (t : PathTemplate) : t.Spelled t.text := by
  refine ⟨t.segments.map PathSegment.text, ?_, ?_⟩
  · rw [List.forall₂_map_right_iff, List.forall₂_same]
    intro segment _
    exact .text segment
  · rw [text, List.map_map]
    rfl

/-- A well-formed template is read back as it was written. -/
theorem parse_text {t : PathTemplate} (ht : t.WellFormed) : parse t.text = .ok t :=
  (parse_eq_ok_iff t.text t).2 ⟨ht, spelled_text t⟩

/-- **Reading undoes writing, and nothing else is read.** The texts that are read as a template are
the spellings of well-formed templates; the text that is written is one of them. -/
theorem parse_spec (s : String) (t : PathTemplate) :
    (parse s = .ok t ↔ t.WellFormed ∧ t.Spelled s) ∧ t.Spelled t.text :=
  ⟨parse_eq_ok_iff s t, spelled_text t⟩

end PathTemplate

end ApiModel
