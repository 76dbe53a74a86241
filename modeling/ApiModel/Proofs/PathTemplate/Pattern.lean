import ApiModel.Proofs.PathTemplate.RoundTrip

/-!
# Resource patterns and path templates

A resource pattern is read like the path of a template, but it has no leading slash and no verb: a colon is
ordinary text in it.  So the two readings agree where no colon stands outside of braces, on what they accept and
on what they find wrong; a verb behind the pattern changes neither.

Joining the segments of a pattern by slashes gives the pattern back, but for the variables `{f=*}`, which are
written `{f}`.

Principal results:

* `splitVerb_append` — parting the verb finds the same braces as parting the segments;
* `readTemplate_slash` — a template is a slash, a pattern without a colon outside braces, and a verb;
* `shortenFrom_spellings` — shortening the spellings of segments gives their texts;
* `parsePattern_spec` — **a pattern is read as the path of a template is, and displayed as it was written**.
-/

namespace ApiModel

open ApiModel.Text

namespace PathTemplate

variable {depth : Nat} {path rest : List Char} {verb : Option (List Char)} {c : Char}

/-! ## Colons inside of braces -/

/-- No colon stands outside of braces, `depth` of them being open: none follows a text whose braces fit
together. -/
def ColonsInside (depth : Nat) (path : List Char) : Prop :=
  ∀ before after, path = before ++ ':' :: after → ¬ Enclosed (fun _ => true) depth before

/-- Behind a character, the braces that are open may be others. -/
theorem ColonsInside.tail {next : Nat} (h : ColonsInside depth (c :: rest))
    (hnext : depthBehind depth c = some next) : ColonsInside next rest := by
  rintro before after rfl henclosed
  exact h (c :: before) after rfl ((enclosed_cons hnext).2 ⟨fun _ _ => rfl, henclosed⟩)

/-- A colon that stands first is inside of braces. -/
theorem ColonsInside.depth_ne_zero (h : ColonsInside depth (':' :: rest)) : depth ≠ 0 := by
  rintro rfl
  exact h [] rest rfl rfl

/-- In a text whose braces fit together it is enough that none of the characters outside is a colon. -/
theorem ColonsInside.of_enclosed (h : Enclosed (· != ':') 0 path) : ColonsInside 0 path := by
  rintro before after rfl henclosed
  obtain ⟨-, hcolon⟩ := (enclosed_append henclosed).1 h
  exact absurd (hcolon.1 rfl) (by decide)

/-! ## Parting the verb from a pattern -/

/-- Inside of braces there is no end of the text and no verb. -/
theorem splitVerb_unterminated {text : List Char} (hdepth : depth ≠ 0)
    (htext : ∀ c ∈ text, isBrace c = false) :
    splitVerb depth text = .error .unterminatedVariable := by
  induction text with
  | nil => exact if_neg hdepth
  | cons c rest ih =>
    have hrest := ih fun x hx => htext x (by simp [hx])
    rw [splitVerb_cons, depthBehind_of_not_brace depth (htext c (by simp))]
    dsimp only
    rw [if_neg fun h => hdepth h.2, hrest]
    rfl

theorem IsPlain.no_brace {text : List Char} (h : IsPlain text) : ∀ c ∈ text, isBrace c = false := by
  intro c hc
  have := h.2 c hc
  simp only [isDelimiter, Bool.or_eq_false_iff] at this
  simp [isBrace, this.1.1.2, this.1.2]

/-- A verb stands where the path ends, outside of braces. -/
theorem splitVerb_verbChars (hverb : ∀ v ∈ verb, IsPlain v) :
    splitVerb depth (verbChars verb) = (splitSegments depth []).map fun _ => ([], verb) := by
  cases verb with
  | none =>
    simp only [verbChars, splitVerb, splitSegments]
    split <;> rfl
  | some v =>
    have hplain := hverb v rfl
    rw [verbChars, splitVerb_cons, depthBehind_of_not_brace depth rfl, splitSegments]
    dsimp only
    by_cases hdepth : depth = 0
    · have hvalid : (v.isEmpty || v.any isDelimiter) = false := by
        simpa [IsPlain] using hplain
      rw [if_pos ⟨rfl, hdepth⟩, hvalid, if_pos hdepth]
      rfl
    · rw [if_neg fun h => hdepth h.2, if_neg hdepth,
        splitVerb_unterminated hdepth hplain.no_brace]
      rfl

/-- A character in front of what a reading gives. -/
theorem front_map {x : Except Fault (List (List Char))} {f : List (List Char) → List (List Char)}
    (c : Char) (path : List Char) (verb : Option (List Char)) :
    (do let (p, v) ← x.map fun _ => (path, verb); return (c :: p, v)) =
      (x.map f).map fun _ => (c :: path, verb) := by
  cases x <;> rfl

/-- **Parting the verb finds the same braces as parting the segments**: it fails where that fails, and with
the same fault. -/
theorem splitVerb_append (hpath : ColonsInside depth path) (hverb : ∀ v ∈ verb, IsPlain v) :
    splitVerb depth (path ++ verbChars verb) =
      (splitSegments depth path).map fun _ => (path, verb) := by
  induction path generalizing depth with
  | nil => exact splitVerb_verbChars hverb
  | cons c rest ih =>
    rw [List.cons_append, splitVerb_cons, splitSegments_cons]
    cases hnext : depthBehind depth c with
    | none => rfl
    | some next =>
      have hcolon : ¬ (c = ':' ∧ depth = 0) := by
        rintro ⟨rfl, hdepth⟩
        exact hpath.depth_ne_zero hdepth
      dsimp only
      rw [if_neg hcolon, ih (hpath.tail hnext)]
      exact front_map c rest verb

/-- A template is read as the pattern behind its slash, with the verb behind that. -/
theorem readTemplate_slash (hpath : ColonsInside 0 path) (hverb : ∀ v ∈ verb, IsPlain v) :
    readTemplate ('/' :: (path ++ verbChars verb)) =
      (readSegments path).map fun segments =>
        { segments, verb := verb.map String.ofList } := by
  rw [readTemplate, splitVerb_append hpath hverb]
  cases hsplit : splitSegments 0 path with
  | error fault =>
    rw [readSegments, hsplit]
    rfl
  | ok ps =>
    dsimp only [Except.map, bind, Except.bind]
    cases readSegments path <;> rfl

theorem fault_parse (s : String) : (parse s).mapError (·.fault) = readTemplate s.toList := by
  unfold parse
  cases readTemplate s.toList <;> rfl

theorem fault_parsePattern (p : String) :
    (parsePattern p).mapError (·.fault) = readSegments p.toList := by
  unfold parsePattern
  cases readSegments p.toList <;> rfl

/-- A text and the pattern that it has behind its slash are read alike. -/
theorem fault_parse_slash {s p : String} (hs : s.toList = '/' :: (p.toList ++ verbChars verb))
    (hpath : ColonsInside 0 p.toList) (hverb : ∀ v ∈ verb, IsPlain v) :
    (parse s).mapError (·.fault) =
      ((parsePattern p).mapError (·.fault)).map fun segments =>
        { segments, verb := verb.map String.ofList } := by
  rw [fault_parse, hs, readTemplate_slash hpath hverb, fault_parsePattern]

/-! ## Shortening -/

/-- The text with each variable `{f=*}` written `{f}`.  `naming` holds while a field path is read: an opening
brace begins it, and an equals sign or a closing brace ends it. -/
def shortenFrom : Bool → List Char → List Char
  | true, '=' :: '*' :: '\x7d' :: rest => '\x7d' :: shortenFrom false rest
  | naming, c :: rest =>
    c :: shortenFrom (c == '\x7b' || (naming && c != '=' && c != '\x7d')) rest
  | _, [] => []

/-- The text with each variable `{f=*}` written `{f}`. -/
def shorten (s : String) : String := String.ofList (shortenFrom false s.toList)

example : shorten "a/{b.c=*}/{d=*/*}/{e}:{f=g=*}" = "a/{b.c}/{d=*/*}/{e}:{f=g=*}" := by decide

theorem shortenFrom_false_cons (c : Char) (rest : List Char) :
    shortenFrom false (c :: rest) = c :: shortenFrom (c == '\x7b') rest := by
  rw [shortenFrom] <;> simp

/-- Nothing is shortened outside of braces. -/
theorem shortenFrom_no_brace {text : List Char} (htext : ∀ c ∈ text, isBrace c = false)
    (rest : List Char) : shortenFrom false (text ++ rest) = text ++ shortenFrom false rest := by
  induction text with
  | nil => rfl
  | cons c text ih =>
    obtain ⟨hopen, -⟩ := ne_of_not_brace (htext c (by simp))
    rw [List.cons_append, shortenFrom_false_cons, beq_eq_false_iff_ne.2 hopen,
      ih fun x hx => htext x (by simp [hx])]
    rfl

/-- A field path stays. -/
theorem shortenFrom_names {names : List Char}
    (hnames : ∀ c ∈ names, isBrace c = false ∧ c ≠ '=') (rest : List Char) :
    shortenFrom true (names ++ rest) = names ++ shortenFrom true rest := by
  induction names with
  | nil => rfl
  | cons c names ih =>
    obtain ⟨hbrace, hequals⟩ := hnames c (by simp)
    obtain ⟨hopen, hclose⟩ := ne_of_not_brace hbrace
    have hnaming : (c == '\x7b' || (true && c != '=' && c != '\x7d')) = true := by
      simp [hequals, hclose]
    rw [List.cons_append, shortenFrom, hnaming, ih fun x hx => hnames x (by simp [hx])]
    · rfl
    · rintro _ - heq -
      exact hequals heq

/-- A pattern stays unless it is `*`. -/
theorem shortenFrom_pattern {pattern : List Char} (hpattern : ∀ c ∈ pattern, isBrace c = false)
    (hany : pattern ≠ ['*']) (rest : List Char) :
    shortenFrom true ('=' :: (pattern ++ '\x7d' :: rest)) =
      '=' :: (pattern ++ '\x7d' :: shortenFrom false rest) := by
  have hlong : ∀ after, pattern ++ '\x7d' :: rest ≠ '*' :: '\x7d' :: after := by
    intro after heq
    cases pattern with
    | nil => simp at heq
    | cons c pattern =>
      rw [List.cons_append, List.cons.injEq] at heq
      obtain ⟨rfl, heq⟩ := heq
      cases pattern with
      | nil => exact hany rfl
      | cons d pattern =>
        rw [List.cons_append, List.cons.injEq] at heq
        have hd := hpattern d (by simp)
        rw [heq.1] at hd
        cases hd
  rw [shortenFrom]
  · show '=' :: shortenFrom false (pattern ++ '\x7d' :: rest) = _
    rw [shortenFrom_no_brace hpattern, shortenFrom_false_cons]
    rfl
  · rintro after - - heq
    exact hlong after heq

/-! ## Displaying a pattern -/

/-- The field path of a variable holds neither braces nor equals signs. -/
theorem fieldName_no_equals {v : PathVariable} (hv : v.WellFormed) :
    ∀ c ∈ v.fieldName.toList, isBrace c = false ∧ c ≠ '=' := by
  intro c hc
  rcases fieldName_chars hv.names c hc with hname | rfl
  · constructor
    · rw [isBrace, Bool.or_eq_false_iff, beq_eq_false_iff_ne, beq_eq_false_iff_ne]
      constructor <;> (rintro rfl; simp [isNameChar] at hname)
    · rintro rfl
      simp [isNameChar] at hname
  · decide

/-- The pattern of a variable over more than a single segment is not `*`. -/
theorem pattern_ne_any {v : PathVariable} (hv : v.WellFormed) (hsingle : ¬ v.isSingle) :
    ("/".intercalate v.segments).toList ≠ ['*'] := by
  intro h
  apply hsingle
  have hfree : ∀ s ∈ v.segments, '/' ∉ s.toList := fun s hs =>
    (isPatternSegment_iff.1 (hv.segments s hs)).1
  rw [String.toList_intercalate] at h
  have hpieces := (map_ofList_pieces_eq_iff '/' ['*'] v.segments).2
    ⟨hv.segments_ne, hfree, h.symm⟩
  rw [isSingle_iff, ← hpieces]
  rfl

/-- Shortening a spelling of a segment gives the segment's own text. -/
theorem shortenFrom_spelled {segment : PathSegment} {x : String} (hread : IsReadable segment)
    (hx : segment.Spelled x) (rest : List Char) :
    shortenFrom false (x.toList ++ rest) = segment.text.toList ++ shortenFrom false rest := by
  cases segment with
  | literal s =>
    obtain rfl := spelled_literal_iff.1 hx
    exact shortenFrom_no_brace hread.2 rest
  | bound v =>
    obtain ⟨inner, hinner, hshape⟩ := spelled_bound_iff.1 hx
    have hnames := shortenFrom_names (fieldName_no_equals hread)
    have hopen : ∀ inner, shortenFrom false ('\x7b' :: inner) = '\x7b' :: shortenFrom true inner :=
      fun inner => shortenFrom_false_cons '\x7b' inner
    rw [hinner, toList_text_bound]
    simp only [List.cons_append, List.append_assoc, List.nil_append]
    rw [hopen]
    by_cases hsingle : v.isSingle
    · rw [if_pos hsingle, List.nil_append]
      rcases hshape with rfl | ⟨-, rfl⟩
      · have hany : ("/".intercalate v.segments).toList = ['*'] := by
          rw [isSingle_iff.1 hsingle]
          rfl
        rw [hany, List.append_assoc, hnames]
        rfl
      · rw [hnames]
        rfl
    · rw [if_neg hsingle]
      obtain rfl | ⟨h, -⟩ := hshape
      · have hpattern : ∀ c ∈ ("/".intercalate v.segments).toList, isBrace c = false :=
          fun c hc => no_brace_inside hread (.inl rfl) c
            (List.mem_append_right _ (List.mem_cons_of_mem _ hc))
        rw [List.append_assoc, hnames, List.cons_append,
          shortenFrom_pattern hpattern (pattern_ne_any hread hsingle)]
        rfl
      · exact absurd h hsingle

/-- **Shortening the spellings of segments gives their texts.** -/
theorem shortenFrom_spellings {segments : List PathSegment} {xs : List String}
    (hread : ∀ seg ∈ segments, IsReadable seg)
    (hxs : List.Forall₂ PathSegment.Spelled segments xs) :
    shortenFrom false (List.intercalate ['/'] (xs.map String.toList)) =
      List.intercalate ['/'] (segments.map (·.text.toList)) := by
  induction hxs with
  | nil => rfl
  | @cons seg x segments xs hx hxs ih =>
    have hseg := shortenFrom_spelled (hread seg (by simp)) hx
    have hrest := ih fun s hs => hread s (by simp [hs])
    cases hxs with
    | nil => simpa [shortenFrom] using hseg []
    | cons =>
      simp only [List.map_cons, List.intercalate_cons_cons, List.append_assoc,
        List.singleton_append] at hrest ⊢
      rw [hseg, shortenFrom_false_cons]
      exact congrArg (fun tail => seg.text.toList ++ '/' :: tail) hrest

theorem toList_patternText (segments : List PathSegment) :
    (PathSegment.patternText segments).toList =
      List.intercalate ['/'] (segments.map (·.text.toList)) := by
  simp [PathSegment.patternText, String.toList_intercalate, Function.comp_def]

/-- What is displayed of a pattern is the pattern, shortened. -/
theorem patternText_eq_shorten {p : String} {segments : List PathSegment}
    (h : parsePattern p = .ok segments) : PathSegment.patternText segments = shorten p := by
  obtain ⟨-, hread, -, xs, hxs, hp⟩ :=
    readSegments_eq_ok_iff.1 (mapError_eq_ok_iff.1 h)
  apply String.toList_inj.1
  rw [toList_patternText, shorten, String.toList_ofList, hp, shortenFrom_spellings hread hxs]

/-- What is displayed of a pattern is read as the same segments. -/
theorem parsePattern_patternText {p : String} {segments : List PathSegment}
    (h : parsePattern p = .ok segments) :
    parsePattern (PathSegment.patternText segments) = .ok segments := by
  obtain ⟨hne, hread, hslash, -⟩ := readSegments_eq_ok_iff.1 (mapError_eq_ok_iff.1 h)
  refine mapError_eq_ok_iff.2 (readSegments_eq_ok_iff.2 ⟨hne, hread, hslash,
    segments.map PathSegment.text, ?_, ?_⟩)
  · rw [List.forall₂_map_right_iff, List.forall₂_same]
    intro segment _
    exact .text segment
  · rw [toList_patternText, List.map_map]
    rfl

/-- **A resource pattern is read as the path of a template is, and displayed as it was written.**  Where no
colon stands outside of braces, a slash in front of a pattern, and a verb behind it, change neither what is read
nor the fault; and the segments of any pattern, joined by slashes, are the pattern with `{f=*}` written `{f}`,
which is read as the same segments. -/
theorem parsePattern_spec (p : String) :
    (ColonsInside 0 p.toList →
      (parse ("/" ++ p)).mapError (·.fault) =
        ((parsePattern p).mapError (·.fault)).map fun segments => { segments, verb := none }) ∧
    (ColonsInside 0 p.toList → ∀ v : String,
      (v ≠ "" ∧ ∀ c ∈ v.toList, c ≠ '/' ∧ c ≠ '\x7b' ∧ c ≠ '\x7d' ∧ c ≠ ':') →
        (parse ("/" ++ p ++ ":" ++ v)).mapError (·.fault) =
          ((parsePattern p).mapError (·.fault)).map fun segments => { segments, verb := some v }) ∧
    ∀ segments, parsePattern p = .ok segments →
      PathSegment.patternText segments = shorten p ∧ parsePattern (shorten p) = .ok segments := by
  refine ⟨fun hpath => ?_, fun hpath v hv => ?_, fun segments h => ?_⟩
  · have hchars : ("/" ++ p).toList = '/' :: (p.toList ++ verbChars none) := by
      simp [verbChars]
    exact fault_parse_slash hchars hpath (by simp)
  · have hchars : ("/" ++ p ++ ":" ++ v).toList = '/' :: (p.toList ++ verbChars (some v.toList)) := by
      simp [verbChars]
    have hread := fault_parse_slash hchars hpath (by simpa using isPlain_iff.2 hv)
    rwa [Option.map_some, String.ofList_toList] at hread
  · rw [← patternText_eq_shorten h]
    exact ⟨rfl, parsePattern_patternText h⟩

/-- A pattern with a colon inside of braces, and with a variable that is shortened. -/
theorem parsePattern_spec_shelves :
    let p := "shelves/{shelf=*}/{book=books/*:draft}"
    let segments : List PathSegment :=
      [.literal "shelves", .bound ⟨["shelf"], ["*"]⟩, .bound ⟨["book"], ["books", "*:draft"]⟩]
    ColonsInside 0 p.toList ∧ parsePattern p = .ok segments ∧
      parse ("/" ++ p) = .ok { segments, verb := none } ∧
      parse ("/" ++ p ++ ":" ++ "print") = .ok { segments, verb := some "print" } ∧
      PathSegment.patternText segments = "shelves/{shelf}/{book=books/*:draft}" := by
  intro p segments
  have hcolons : ColonsInside 0 p.toList := by
    apply ColonsInside.of_enclosed
    simp [p, Enclosed]
  have hread : parsePattern p = .ok segments := by decide
  obtain ⟨hslash, hverb, hshown⟩ := parsePattern_spec p
  have hslash := hslash hcolons
  have hverb := hverb hcolons "print" ⟨by decide, by simp⟩
  rw [hread] at hslash hverb
  refine ⟨hcolons, hread, mapError_eq_ok_iff.1 hslash, mapError_eq_ok_iff.1 hverb, ?_⟩
  rw [(hshown segments hread).1]
  decide

end PathTemplate

end ApiModel
