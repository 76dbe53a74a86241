import ApiModel.Proofs.Target.ResourceName
import Mathlib.Order.Bounds.Basic

/-!
# Targets by vocabulary

Where the fields of a path do not say what it names, the collections in it may.  The search takes the first
pair of a collection and a variable wherever it stands, and gives up if a variable stands before it.  This
module says in positions what it finds.

Principal results:

* `isEligible_iff` — the services whose paths are searched;
* `firstPairs_eq_pairs` — the search begins at the first variable, with the literal before it;
* `isGreatest_length_pairs`, `segments_pairs` — it takes the longest run of pairs, and nothing behind it;
* `namedBy_iff` — it finds something if and only if the first variable stands behind a collection;
* `target_by_vocabulary` — **a path that is not annotated has a target if and only if** its first variable
  stands behind a collection, and then the run of pairs from there on is the target.
-/

namespace ApiModel

/-! ## Pieces of texts with a separator -/

namespace Text

variable {sep : Char}

theorem intercalate_append {ps qs : List (List Char)} (hps : ps ≠ []) (hqs : qs ≠ []) :
    List.intercalate [sep] (ps ++ qs) =
      List.intercalate [sep] ps ++ sep :: List.intercalate [sep] qs := by
  induction ps with
  | nil => exact absurd rfl hps
  | cons p rest ih =>
    cases rest with
    | nil =>
      cases qs with
      | nil => exact absurd rfl hqs
      | cons q more => simp [List.intercalate_cons_cons]
    | cons r more =>
      have ih := ih (by simp)
      rw [List.cons_append, List.cons_append, List.intercalate_cons_cons, ← List.cons_append, ih,
        List.intercalate_cons_cons]
      simp

/-- The pieces on both sides of a separator. -/
theorem pieces_append_sep (s t : List Char) :
    pieces (· == sep) (s ++ sep :: t) = pieces (· == sep) s ++ pieces (· == sep) t := by
  obtain ⟨hs, hsep, hsplit⟩ := pieces_eq_iff.1 (rfl : pieces (· == sep) s = _)
  obtain ⟨ht, htsep, htsplit⟩ := pieces_eq_iff.1 (rfl : pieces (· == sep) t = _)
  refine pieces_eq_iff.2 ⟨by simp [hs], List.forall_mem_append.2 ⟨hsep, htsep⟩, ?_⟩
  rw [intercalate_append hs ht, ← hsplit, ← htsplit]

end Text

namespace Target

open ApiModel.Text

/-! ## Services -/

/-- The ID is the prefix, or begins with it and a dot. -/
def IsUnder (start id : String) : Prop := id = start ∨ (start ++ ".").toList <+: id.toList

/-- **The eligible services** are those under one of the prefixes. -/
theorem isEligible_iff {id : String} :
    isEligible id = true ↔ ∃ start ∈ eligibleServices, IsUnder start id := by
  unfold isEligible
  simp only [Bool.and_eq_true, decide_eq_true_eq, List.contains_iff_mem]
  have hsplit := intercalate_pieces '.' id.toList
  constructor
  · rintro ⟨hlength, hmem⟩
    refine ⟨_, hmem, ?_⟩
    unfold IsUnder
    rw [String.toList_append, String.toList_ofList]
    rw [← List.take_append_drop 4 (pieces (· == '.') id.toList)] at hsplit
    by_cases hrest : (pieces (· == '.') id.toList).drop 4 = []
    · rw [hrest, List.append_nil] at hsplit
      exact .inl (by rw [hsplit, String.ofList_toList])
    · have htake : (pieces (· == '.') id.toList).take 4 ≠ [] := by
        intro hnil
        have hzero := congrArg List.length hnil
        rw [List.length_take, List.length_nil] at hzero
        omega
      rw [intercalate_append htake hrest] at hsplit
      refine .inr ⟨List.intercalate ['.'] ((pieces (· == '.') id.toList).drop 4), ?_⟩
      rw [List.append_assoc]
      exact hsplit
  · rintro ⟨start, hstart, hunder⟩
    have hfour : ∀ start ∈ eligibleServices, (pieces (· == '.') start.toList).length = 4 := by decide
    have hlength := hfour start hstart
    have hparts : ∃ rest, pieces (· == '.') id.toList = pieces (· == '.') start.toList ++ rest := by
      rcases hunder with rfl | ⟨rest, hrest⟩
      · exact ⟨[], (List.append_nil _).symm⟩
      · rw [String.toList_append, List.append_assoc] at hrest
        exact ⟨_, hrest ▸ pieces_append_sep start.toList rest⟩
    obtain ⟨rest, hparts⟩ := hparts
    rw [hparts, List.length_append, List.take_left' hlength, intercalate_pieces, String.ofList_toList]
    exact ⟨by omega, hstart⟩

/-! ## Positions -/

/-- A collection stands at the position, and a variable over one segment behind it. -/
def PairAt (words : List String) (segments : List PathSegment) (i : Nat) : Prop :=
  ∃ word v, segments[i]? = some (.literal word) ∧ segments[i + 1]? = some (.bound v) ∧
    isCollection words word = true ∧ v.isSingle = true

/-- The first variable stands at the position. -/
def FirstVariable (segments : List PathSegment) (i : Nat) : Prop :=
  (∃ v, segments[i]? = some (.bound v)) ∧ ∀ j < i, ∃ word, segments[j]? = some (.literal word)

variable {words : List String} {segments rest : List PathSegment} {i j : Nat}

theorem FirstVariable.unique (hi : FirstVariable segments i) (hj : FirstVariable segments j) : i = j := by
  have hle : ∀ {i j}, FirstVariable segments i → FirstVariable segments j → ¬ i < j := by
    intro i j hi hj hlt
    obtain ⟨v, hv⟩ := hi.1
    obtain ⟨word, hword⟩ := hj.2 i hlt
    rw [hv] at hword
    cases hword
  have hij := hle hi hj
  have hji := hle hj hi
  omega

theorem pairAt_drop : PairAt words (segments.drop i) j ↔ PairAt words segments (i + j) := by
  unfold PairAt
  simp only [List.getElem?_drop, Nat.add_assoc]

/-! ## The search -/

/-- A pair at the front is the two segments there. -/
theorem eq_cons_of_pairAt_zero (h : PairAt words segments 0) :
    ∃ word v rest, segments = .literal word :: .bound v :: rest ∧
      isCollection words word = true ∧ v.isSingle = true := by
  obtain ⟨word, v, hword, hv, hcollection, hsingle⟩ := h
  match segments, hword, hv with
  | x :: y :: rest, hword, hv =>
    obtain rfl : x = .literal word := Option.some.inj hword
    obtain rfl : y = .bound v := Option.some.inj hv
    exact ⟨word, v, rest, rfl, hcollection, hsingle⟩

theorem startsWithPair_iff : startsWithPair words segments = true ↔ PairAt words segments 0 := by
  constructor
  · intro h
    unfold startsWithPair at h
    split at h
    · rename_i word v rest
      rw [Bool.and_eq_true] at h
      exact ⟨word, v, rfl, rfl, h.2, h.1⟩
    · cases h
  · intro h
    obtain ⟨word, v, rest, rfl, hcollection, hsingle⟩ := eq_cons_of_pairAt_zero h
    simp [startsWithPair, hcollection, hsingle]

theorem startsWithPair_drop_iff : startsWithPair words (segments.drop i) = true ↔
    PairAt words segments i := by
  rw [startsWithPair_iff, pairAt_drop, Nat.add_zero]

/-- Where no pair stands at the front, none is found there. -/
theorem pairs_ne_nil_iff : pairs words segments ≠ [] ↔ PairAt words segments 0 := by
  rw [← startsWithPair_iff]
  fun_cases pairs words segments with
  | case1 word v rest hpair => simp [startsWithPair, hpair]
  | case2 word v rest hpair => simp [startsWithPair, hpair]
  | case3 segments hother =>
    refine iff_of_false (not_not_intro rfl) fun h => ?_
    obtain ⟨word, v, rest, heq, -⟩ := eq_cons_of_pairAt_zero (startsWithPair_iff.1 h)
    exact hother word v rest heq

/-- The pairs stand one behind the other, and no pair stands behind the last. -/
theorem pairAt_pairs (words : List String) (segments : List PathSegment) :
    (∀ j < (pairs words segments).length, PairAt words segments (2 * j)) ∧
      ¬ PairAt words segments (2 * (pairs words segments).length) := by
  fun_induction pairs words segments with
  | case1 word v rest hpair ih =>
    have hstep : ∀ j, PairAt words (.literal word :: .bound v :: rest) (2 * (j + 1)) ↔
        PairAt words rest (2 * j) := fun _ => Iff.rfl
    refine ⟨fun j hj => ?_, fun h => ih.2 ((hstep _).1 h)⟩
    rw [List.length_cons] at hj
    cases j with
    | zero =>
      rw [Bool.and_eq_true] at hpair
      exact ⟨word, v, rfl, rfl, hpair.2, hpair.1⟩
    | succ j => exact (hstep j).2 (ih.1 j (by omega))
  | case2 word v rest hpair =>
    refine ⟨fun j hj => absurd hj (Nat.not_lt_zero j), fun h => ?_⟩
    have hne := pairs_ne_nil_iff.2 h
    rw [pairs, if_neg hpair] at hne
    exact hne rfl
  | case3 segments hother =>
    refine ⟨fun j hj => absurd hj (Nat.not_lt_zero j), fun h => ?_⟩
    obtain ⟨word, v, rest, heq, -⟩ := eq_cons_of_pairAt_zero h
    exact hother word v rest heq

/-- **The run of pairs is as long as it can be.** -/
theorem isGreatest_length_pairs (words : List String) (segments : List PathSegment) :
    IsGreatest {n | ∀ j < n, PairAt words segments (2 * j)} (pairs words segments).length := by
  obtain ⟨hrun, hend⟩ := pairAt_pairs words segments
  refine ⟨hrun, fun n hn => Nat.le_of_not_lt fun hlt => hend (hn _ hlt)⟩

/-- **The segments of the run**, and nothing behind it. -/
theorem segments_pairs (words : List String) (segments : List PathSegment) :
    (pairs words segments).flatMap Pair.segments =
      segments.take (2 * (pairs words segments).length) := by
  fun_induction pairs words segments with
  | case1 word v rest hpair ih =>
    rw [List.flatMap_cons, ih, List.length_cons]
    rfl
  | case2 word v rest hpair => rfl
  | case3 segments hother => rfl

theorem pairs_drop_ne_nil_iff : pairs words (segments.drop i) ≠ [] ↔ PairAt words segments i := by
  rw [pairs_ne_nil_iff, pairAt_drop, Nat.add_zero]

/-! ## The first pair -/

/-- The first pair stands at the position. -/
def FirstPair (words : List String) (segments : List PathSegment) (i : Nat) : Prop :=
  PairAt words segments i ∧ ∀ j < i, ¬ PairAt words segments j

theorem lt_length_of_pairAt (h : PairAt words segments i) : i < segments.length := by
  obtain ⟨word, -, hword, -⟩ := h
  exact (List.getElem?_eq_some_iff.1 hword).1

theorem find?_pair_eq_some_iff :
    (List.range segments.length).find? (fun i => startsWithPair words (segments.drop i)) = some i ↔
      FirstPair words segments i := by
  simp only [List.find?_range_eq_some, startsWithPair_drop_iff, List.mem_range, Bool.not_eq_true',
    ← Bool.not_eq_true]
  constructor
  · rintro ⟨hpair, -, hbefore⟩
    exact ⟨hpair, hbefore⟩
  · rintro ⟨hpair, hbefore⟩
    exact ⟨hpair, lt_length_of_pairAt hpair, hbefore⟩

theorem find?_pair_eq_none_iff :
    (List.range segments.length).find? (fun i => startsWithPair words (segments.drop i)) = none ↔
      ∀ i, ¬ PairAt words segments i := by
  simp only [List.find?_range_eq_none, Bool.not_eq_true', ← Bool.not_eq_true, startsWithPair_drop_iff]
  exact ⟨fun h i hpair => h i (lt_length_of_pairAt hpair) hpair, fun h i _ => h i⟩

/-- Only literals stand before the position. -/
theorem any_isBound_take_eq_false_iff (hlength : i ≤ segments.length) :
    (segments.take i).any (·.isBound) = false ↔ ∀ j < i, ∃ word, segments[j]? = some (.literal word) := by
  rw [List.any_eq_false]
  constructor
  · intro h j hj
    have hlt : j < segments.length := by omega
    have hmem : segments[j] ∈ segments.take i := List.mem_take_iff_getElem.2 ⟨j, by omega, rfl⟩
    have hfree := h _ hmem
    cases hsegment : segments[j] with
    | literal word => exact ⟨word, by rw [List.getElem?_eq_getElem hlt, hsegment]⟩
    | bound v =>
      rw [hsegment] at hfree
      exact absurd rfl hfree
  · intro h x hx
    obtain ⟨j, hj, rfl⟩ := List.mem_take_iff_getElem.1 hx
    obtain ⟨word, hword⟩ := h j (by omega)
    rw [List.getElem?_eq_getElem (by omega)] at hword
    rw [Option.some.inj hword]
    exact Bool.false_ne_true

/-- With only literals before it, the first pair has the first variable. -/
theorem FirstPair.firstVariable (h : FirstPair words segments i)
    (hfree : (segments.take i).any (·.isBound) = false) : FirstVariable segments (i + 1) := by
  obtain ⟨word, v, hword, hv, -⟩ := h.1
  refine ⟨⟨v, hv⟩, fun j hj => ?_⟩
  rcases Nat.lt_succ_iff_lt_or_eq.1 hj with hlt | rfl
  · exact (any_isBound_take_eq_false_iff (lt_length_of_pairAt h.1).le).1 hfree j hlt
  · exact ⟨word, hword⟩

/-- No pair stands before the one with the first variable. -/
theorem FirstVariable.le_of_pairAt (hi : FirstVariable segments (i + 1)) (hj : PairAt words segments j) :
    i ≤ j := by
  obtain ⟨_, v, _, hv, _⟩ := hj
  refine Nat.le_of_not_lt fun hlt => ?_
  obtain ⟨word, hword⟩ := hi.2 (j + 1) (by omega)
  rw [hv] at hword
  cases hword

/-- **The search begins at the first variable**, with the literal before it: if they are no pair, then a pair
that stands behind them is not taken. -/
theorem firstPairs_eq_pairs (h : FirstVariable segments (i + 1)) :
    firstPairs words segments = pairs words (segments.drop i) := by
  have hnil : ¬ PairAt words segments i → pairs words (segments.drop i) = [] := fun hno =>
    Classical.not_not.1 fun hne => hno (pairs_drop_ne_nil_iff.1 hne)
  fun_cases firstPairs words segments with
  | case1 hnone => exact (hnil (find?_pair_eq_none_iff.1 hnone i)).symm
  | case2 j hfound hbound =>
    refine (hnil fun hpair => ?_).symm
    have hfirst := find?_pair_eq_some_iff.1 hfound
    have hij : i ≤ j := h.le_of_pairAt hfirst.1
    have hji : j ≤ i := Nat.le_of_not_lt fun hlt => hfirst.2 i hlt hpair
    obtain rfl : i = j := by omega
    have hfree := (any_isBound_take_eq_false_iff (lt_length_of_pairAt hpair).le).2
      fun k hk => h.2 k (by omega)
    rw [hfree] at hbound
    cases hbound
  | case3 j hfound hfree =>
    have hfirst := find?_pair_eq_some_iff.1 hfound
    have hsame := (hfirst.firstVariable (Bool.not_eq_true _ ▸ hfree)).unique h
    obtain rfl : j = i := by omega
    rfl

theorem firstPairs_ne_nil_iff : firstPairs words segments ≠ [] ↔
    ∃ i, FirstVariable segments (i + 1) ∧ PairAt words segments i := by
  constructor
  · intro h
    fun_cases firstPairs words segments with
    | case1 hnone => simp [firstPairs, hnone] at h
    | case2 j hfound hbound => simp [firstPairs, hfound, hbound] at h
    | case3 j hfound hfree =>
      have hfirst := find?_pair_eq_some_iff.1 hfound
      exact ⟨j, hfirst.firstVariable (Bool.not_eq_true _ ▸ hfree), hfirst.1⟩
  · rintro ⟨i, hi, hpair⟩
    rw [firstPairs_eq_pairs hi]
    exact pairs_drop_ne_nil_iff.2 hpair

/-! ## Targets -/

/-- The target is the longest run of pairs from the position on, which is the one before the first variable. -/
structure IsRun (api : Api) (s : Service) (words : List String) (segments : List PathSegment)
    (i n : Nat) (t : TargetResource) : Prop where
  first : FirstVariable segments (i + 1)
  longest : IsGreatest {n | ∀ j < n, PairAt words segments (i + 2 * j)} n
  length : t.fieldPaths.length = n
  fieldPaths : t.fieldPaths = (variablesOf ((segments.drop i).take (2 * n))).map (·.fieldPath)
  template : ∃ H, host api s = .ok H ∧ t.template = "//" ++ H ++
    String.join (((segments.drop i).take (2 * n)).map fun x => "/" ++ segmentText x)

variable {api found : Api} {s : Service} {m : Method} {path : PathTemplate} {t : Option TargetResource}

/-- The vocabulary names the path for the service: the service is eligible, and the first variable stands behind
a collection. -/
def NamedBy (words : List String) (s : Service) (path : PathTemplate) : Prop :=
  (∃ start ∈ eligibleServices, IsUnder start s.id) ∧
    ∃ i, FirstVariable path.segments (i + 1) ∧ PairAt words path.segments i

/-- **The search finds something if and only if** the vocabulary names the path. -/
theorem namedBy_iff : NamedBy words s path ↔ Finds words s path := by
  rw [NamedBy, Finds, ← isEligible_iff, ← firstPairs_ne_nil_iff]

theorem isSome_iff_namedBy (h : byVocabulary? api s m path words = .ok t) :
    t.isSome ↔ NamedBy words s path := by
  obtain ⟨htarget, hplain⟩ := byVocabulary?_eq_ok_iff.1 h
  rw [namedBy_iff]
  constructor
  · intro hsome
    by_contra hno
    rw [hplain hno] at hsome
    cases hsome
  · intro hfinds
    obtain ⟨input, name, -, -, -, rfl⟩ := htarget hfinds
    rfl

theorem isRun_of_byVocabulary? {target : TargetResource}
    (h : byVocabulary? api s m path words = .ok (some target)) :
    ∃ i n, IsRun api s words path.segments i n target := by
  have hnamed := (isSome_iff_namedBy h).1 rfl
  obtain ⟨input, name, -, -, hname, heq⟩ := (byVocabulary?_eq_ok_iff.1 h).1 (namedBy_iff.1 hnamed)
  obtain rfl := Option.some.inj heq
  obtain ⟨-, i, hi, -⟩ := hnamed
  have hgreatest := isGreatest_length_pairs words (path.segments.drop i)
  simp only [pairAt_drop] at hgreatest
  obtain ⟨H, hhost, hname⟩ := bind_eq_ok_iff.1 hname
  have hsegments := segments_pairs words (path.segments.drop i)
  rw [← firstPairs_eq_pairs hi] at hsegments
  refine ⟨i, _, hi, hgreatest, ?_, ?_, H, hhost, ?_⟩
  · rw [List.length_map, firstPairs_eq_pairs hi]
  · rw [← firstPairs_eq_pairs hi, ← hsegments, variablesOf_pairs, List.map_map]
    rfl
  · rw [← firstPairs_eq_pairs hi, ← hsegments]
    exact (Except.ok.inj hname).symm

/-- **A path has a target by vocabulary if and only if** its service is eligible and its first variable stands
behind a collection; the target is the run of pairs from there on. -/
theorem byVocabulary?_spec (h : byVocabulary? api s m path words = .ok t) :
    (t.isSome ↔ (∃ start ∈ eligibleServices, IsUnder start s.id) ∧
        ∃ i, FirstVariable path.segments (i + 1) ∧ PairAt words path.segments i) ∧
      ∀ target, t = some target → ∃ i n, IsRun api s words path.segments i n target := by
  refine ⟨isSome_iff_namedBy h, ?_⟩
  rintro target rfl
  exact isRun_of_byVocabulary? h

/-- A binding gets the target that is found for it. -/
theorem getElem?_assign {ε : Type} {f : PathBinding → Except ε (Option TargetResource)}
    {bindings : List PathBinding} {targets : List (Option TargetResource)} {k : Nat} {b : PathBinding}
    (h : bindings.mapM f = .ok targets) (hb : bindings[k]? = some b) :
    ∃ t, f b = .ok t ∧ (assign bindings targets)[k]? = some { b with target := t } := by
  have hall := mapM_eq_ok_iff.1 h
  clear h
  induction hall generalizing k with
  | nil => cases hb
  | @cons first t rest targets hfound _ ih =>
    cases k with
    | zero =>
      obtain rfl := Option.some.inj hb
      exact ⟨t, hfound, rfl⟩
    | succ k => exact ih hb

/-- **A binding that is not annotated has a target if and only if** its service is eligible and the first
variable of its path stands behind a collection.  The target is then the longest run of collections with
their variables from there on. -/
theorem target_by_vocabulary (hkeyed : api.Keyed) (howned : api.MethodsOwned)
    (h : api.identifyTargets = .ok found) {key id : String} (hs : api.service? key = some s)
    (hid : id ∈ s.methods) (hm : api.method? id = some m) {k : Nat} {b : PathBinding}
    (hb : m.pathInfo.bindings[k]? = some b) (hexplicit : explicit? api s m b.path = .ok none) :
    ∃ built t, found.method? id = some built ∧
      built.pathInfo.bindings[k]? = some { b with target := t } ∧
      (t.isSome ↔ (∃ start ∈ eligibleServices, IsUnder start s.id) ∧
        ∃ i, FirstVariable b.path.segments (i + 1) ∧ PairAt (vocabulary api) b.path.segments i) ∧
      ∀ target, t = some target → ∃ i n, IsRun api s (vocabulary api) b.path.segments i n target := by
  obtain ⟨targets, htargets, hrecorded⟩ := recorded_of_identifyTargets hkeyed howned h hs hid hm
  obtain ⟨t, hfound, hassigned⟩ := getElem?_assign htargets hb
  rw [ofPath_of_explicit?_none hexplicit] at hfound
  obtain ⟨hsome, hrun⟩ := byVocabulary?_spec hfound
  exact ⟨m.targeted targets, t, hrecorded, hassigned, hsome, hrun⟩

/-- A path whose fields are not annotated.  The word `access` is no collection, so the pair behind it is left
out. -/
def diskPath : PathTemplate :=
  { segments := [.literal "compute", .literal "v1",
      .literal "projects", .bound { fieldPath := ["project"], segments := ["*"] },
      .literal "zones", .bound { fieldPath := ["zone"], segments := ["*"] },
      .literal "access", .bound { fieldPath := ["level"], segments := ["*"] },
      .literal "disks", .bound { fieldPath := ["disk"], segments := ["*"] }] }

def diskService : Service :=
  { Service.new "Disks" "google.cloud.compute.v1" with
    defaultHost := "compute.googleapis.com", methods := [".google.cloud.compute.v1.Disks.Get"] }

def diskMethod : Method :=
  { Method.new diskService "Get" ".google.cloud.compute.v1.GetDisk" ".google.cloud.compute.v1.GetDisk" with
    pathInfo.bindings := [{ verb := "GET", path := diskPath }] }

def disks : Api :=
  let text (name : String) : Field := { name, jsonName := name, kind := .string }
  let request := ((((Message.new "GetDisk" "google.cloud.compute.v1" none).addField (text "project")).addField
    (text "zone")).addField (text "level")).addField (text "disk")
  (({ name := "compute", package := "google.cloud.compute.v1" } : Api).addMessage request).addService
    { diskService with methods := [] } [diskMethod]

theorem methodsOwned_disks : disks.MethodsOwned := Api.methodsOwned_of_single rfl

theorem target_by_vocabulary_disks :
    disks.Keyed ∧ disks.MethodsOwned ∧ explicit? disks diskService diskMethod diskPath = .ok none ∧
      ∃ found built target, disks.identifyTargets = .ok found ∧
        found.method? ".google.cloud.compute.v1.Disks.Get" = some built ∧
        built.pathInfo.bindings[0]? = some { verb := "GET", path := diskPath, target := some target } ∧
        ∃ n, IsRun disks diskService (vocabulary disks) diskPath.segments 2 n target := by
  have hkeyed : disks.Keyed := by decide
  have hexplicit : explicit? disks diskService diskMethod diskPath = .ok none := by rfl
  obtain ⟨found, hfound⟩ : ∃ found, disks.identifyTargets = .ok found := ⟨_, rfl⟩
  have hservice : disks.service? ".google.cloud.compute.v1.Disks" = some diskService := by rfl
  have hmethod : disks.method? ".google.cloud.compute.v1.Disks.Get" = some diskMethod := by rfl
  obtain ⟨built, t, hbuilt, hbinding, hsome, hrun⟩ := target_by_vocabulary hkeyed methodsOwned_disks hfound
    hservice (List.mem_singleton_self _) hmethod (k := 0) rfl hexplicit
  have hfirst : FirstVariable diskPath.segments 3 := by
    refine ⟨⟨_, rfl⟩, fun j hj => ?_⟩
    obtain rfl | rfl | rfl : j = 0 ∨ j = 1 ∨ j = 2 := by omega
    all_goals exact ⟨_, rfl⟩
  have heligible : ∃ start ∈ eligibleServices, IsUnder start diskService.id :=
    isEligible_iff.1 (by decide)
  have hpair : PairAt (vocabulary disks) diskPath.segments 2 := ⟨_, _, rfl, rfl, by decide, rfl⟩
  obtain ⟨target, rfl⟩ := Option.isSome_iff_exists.1 (hsome.2 ⟨heligible, 2, hfirst, hpair⟩)
  obtain ⟨i, n, hi⟩ := hrun target rfl
  obtain rfl : i = 2 := Nat.succ.inj (hi.first.unique hfirst)
  exact ⟨hkeyed, methodsOwned_disks, hexplicit, found, built, target, hfound, hbuilt, hbinding, n, hi⟩

end Target

end ApiModel
