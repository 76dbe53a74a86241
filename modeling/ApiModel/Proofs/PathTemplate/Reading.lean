import ApiModel.PathTemplate.Parser
import ApiModel.Proofs.Answer

/-!
# How a path template is parted

Each of the two passes that part a template is stated as an equivalence with a shape of the text.  `Enclosed`
says which texts the passes agree on: their braces fit together, and a test holds outside of them.  All three
count the open braces in one way, `depthBehind`, and go on where it does.

* `splitVerb_eq_ok_iff` — a path without a colon outside braces, then perhaps a colon and a verb;
* `splitSegments_eq_ok_iff` — pieces without a slash outside braces, joined by slashes.
-/

namespace ApiModel

open ApiModel.Text

namespace PathTemplate

/-! ## Texts whose braces fit together -/

/-- The braces of a text close `depth` open ones, and outside all braces a test holds. -/
def Enclosed (ok : Char → Bool) : Nat → List Char → Prop
  | depth, [] => depth = 0
  | depth, c :: rest =>
    if c = '\x7b' then Enclosed ok (depth + 1) rest
    else if c = '\x7d' then
      match depth with
      | 0 => False
      | depth + 1 => Enclosed ok depth rest
    else (depth = 0 → ok c = true) ∧ Enclosed ok depth rest

/-- The open braces behind a character, `depth` being open before it: a closing brace needs an open one. -/
def depthBehind (depth : Nat) (c : Char) : Option Nat :=
  if c = '\x7b' then some (depth + 1)
  else if c = '\x7d' then
    match depth with
    | 0 => none
    | depth + 1 => some depth
  else some depth

theorem ne_of_not_brace {c : Char} (hc : isBrace c = false) : c ≠ '\x7b' ∧ c ≠ '\x7d' := by
  simpa [isBrace] using hc

theorem depthBehind_of_not_brace {c : Char} (depth : Nat) (hc : isBrace c = false) :
    depthBehind depth c = some depth := by
  obtain ⟨hopen, hclose⟩ := ne_of_not_brace hc
  simp [depthBehind, hopen, hclose]

section Enclosed

variable {ok ok' : Char → Bool} {depth next : Nat} {c : Char} {a b : List Char}

theorem not_enclosed_cons (hnext : depthBehind depth c = none) : ¬ Enclosed ok depth (c :: a) := by
  unfold Enclosed
  unfold depthBehind at hnext
  split at hnext
  · cases hnext
  · rename_i hopen
    split at hnext
    · rename_i hclose
      rw [if_neg hopen, if_pos hclose]
      cases depth with
      | zero => exact id
      | succ depth => cases hnext
    · cases hnext

/-- Only what stands outside of all braces, and is none itself, is tested. -/
theorem enclosed_cons (hnext : depthBehind depth c = some next) :
    Enclosed ok depth (c :: a) ↔
      (isBrace c = false → depth = 0 → ok c = true) ∧ Enclosed ok next a := by
  rw [Enclosed.eq_def]
  unfold depthBehind at hnext
  dsimp only
  split at hnext
  · rename_i hopen
    obtain rfl := Option.some.inj hnext
    simp [hopen, isBrace]
  · rename_i hopen
    split at hnext
    · rename_i hclose
      cases depth with
      | zero => cases hnext
      | succ depth =>
        obtain rfl := Option.some.inj hnext
        simp [hclose]
    · rename_i hclose
      obtain rfl := Option.some.inj hnext
      simp [hopen, hclose, isBrace]

/-- A text is tested part by part behind a front whose braces fit together. -/
theorem enclosed_append (ha : Enclosed ok' depth a) :
    Enclosed ok depth (a ++ b) ↔ Enclosed ok depth a ∧ Enclosed ok 0 b := by
  induction a generalizing depth with
  | nil =>
    obtain rfl : depth = 0 := ha
    simp [Enclosed]
  | cons c rest ih =>
    cases hnext : depthBehind depth c with
    | none => exact absurd ha (not_enclosed_cons hnext)
    | some next =>
      rw [List.cons_append, enclosed_cons hnext, enclosed_cons hnext,
        ih ((enclosed_cons hnext).1 ha).2, and_assoc]

/-- Without braces, every character is tested. -/
theorem enclosed_of_no_brace (ha : ∀ c ∈ a, isBrace c = false) :
    Enclosed ok 0 a ↔ ∀ c ∈ a, ok c = true := by
  induction a with
  | nil => simp [Enclosed]
  | cons c rest ih =>
    have hc := ha c (by simp)
    rw [enclosed_cons (depthBehind_of_not_brace 0 hc), ih fun x hx => ha x (by simp [hx])]
    simp [hc]

/-- What stands between two braces is not tested. -/
theorem enclosed_braces (ha : ∀ c ∈ a, isBrace c = false) :
    Enclosed ok 0 ('\x7b' :: a ++ ['\x7d']) := by
  have hopen : depthBehind 0 '\x7b' = some 1 := rfl
  rw [List.cons_append, enclosed_cons hopen]
  refine ⟨fun hbrace => absurd hbrace (by decide), ?_⟩
  induction a with
  | nil => simp [Enclosed]
  | cons c rest ih =>
    rw [List.cons_append, enclosed_cons (depthBehind_of_not_brace 1 (ha c (by simp)))]
    exact ⟨by simp, ih fun x hx => ha x (by simp [hx])⟩

/-- Texts that a separator joins are tested one by one, if it passes itself. -/
theorem enclosed_intercalate {sep : Char} (hsep : isBrace sep = false) (hok : ok sep = true)
    {texts : List (List Char)} (hne : texts ≠ []) (h : ∀ t ∈ texts, Enclosed ok' 0 t) :
    Enclosed ok 0 (List.intercalate [sep] texts) ↔ ∀ t ∈ texts, Enclosed ok 0 t := by
  induction texts with
  | nil => exact absurd rfl hne
  | cons t rest ih =>
    cases rest with
    | nil => simp
    | cons u rest =>
      have htail := ih (by simp) fun x hx => h x (by simp [hx])
      rw [List.intercalate_cons_cons, List.append_assoc, enclosed_append (h t (by simp)),
        List.singleton_append, enclosed_cons (depthBehind_of_not_brace 0 hsep), htail,
        List.forall_mem_cons]
      simp [hok]

end Enclosed

/-! ## Parting the verb -/

/-- A colon and the verb, if there is one. -/
def verbChars : Option (List Char) → List Char
  | none => []
  | some verb => ':' :: verb

/-- A verb or a literal: something, and no delimiter in it. -/
def IsPlain (text : List Char) : Prop := text ≠ [] ∧ ∀ c ∈ text, isDelimiter c = false

/-- A character in front of the path, the verb being parted from the rest. -/
theorem front_eq_ok_iff {x : Except Fault (List Char × Option (List Char))} {c : Char}
    {path : List Char} {verb : Option (List Char)} :
    (do let (p, v) ← x; return (c :: p, v)) = .ok (path, verb) ↔
      ∃ p, x = .ok (p, verb) ∧ path = c :: p := by
  simp only [bind_eq_ok_iff, Prod.exists]
  simp [pure, Except.pure, eq_comm]

/-- Parting the verb, one character at a time. -/
theorem splitVerb_cons (depth : Nat) (c : Char) (rest : List Char) :
    splitVerb depth (c :: rest) =
      match depthBehind depth c with
      | none => .error .unbalancedBrace
      | some next =>
        if c = ':' ∧ depth = 0 then
          if rest.isEmpty || rest.any isDelimiter then .error (.invalidVerb (String.ofList rest))
          else .ok ([], some rest)
        else do
          let (path, verb) ← splitVerb next rest
          return (c :: path, verb) := by
  rw [splitVerb.eq_def]
  unfold depthBehind
  dsimp only
  split
  · rename_i hopen
    subst hopen
    rfl
  · split
    · rename_i hclose
      subst hclose
      cases depth <;> rfl
    · rfl

theorem splitVerb_sound {depth : Nat} {cs path : List Char} {verb : Option (List Char)}
    (h : splitVerb depth cs = .ok (path, verb)) :
    Enclosed (· != ':') depth path ∧ (∀ v ∈ verb, IsPlain v) ∧ cs = path ++ verbChars verb := by
  induction cs generalizing depth path with
  | nil =>
    unfold splitVerb at h
    split at h
    · rename_i hdepth
      obtain ⟨rfl, rfl⟩ : path = [] ∧ verb = none := by simpa [eq_comm] using h
      exact ⟨hdepth, by simp, rfl⟩
    · cases h
  | cons c rest ih =>
    -- a brace closed too often, the colon of the verb, or a character of the path
    rw [splitVerb_cons] at h
    cases hnext : depthBehind depth c with
    | none => simp [hnext] at h
    | some next =>
      simp only [hnext] at h
      split at h
      · rename_i hcolon
        obtain ⟨rfl, rfl⟩ := hcolon
        split at h
        · cases h
        · rename_i hplain
          obtain ⟨rfl, rfl⟩ : path = [] ∧ verb = some rest := by simpa [eq_comm] using h
          exact ⟨rfl, by simpa [IsPlain] using hplain, rfl⟩
      · rename_i hcolon
        obtain ⟨p, hp, rfl⟩ := front_eq_ok_iff.1 h
        obtain ⟨henc, hverb, rfl⟩ := ih hp
        refine ⟨(enclosed_cons hnext).2 ⟨fun _ hdepth => ?_, henc⟩, hverb, rfl⟩
        simpa [hdepth] using hcolon

theorem splitVerb_complete {depth : Nat} {path : List Char} {verb : Option (List Char)}
    (hpath : Enclosed (· != ':') depth path) (hverb : ∀ v ∈ verb, IsPlain v) :
    splitVerb depth (path ++ verbChars verb) = .ok (path, verb) := by
  induction path generalizing depth with
  | nil =>
    obtain rfl : depth = 0 := hpath
    cases verb with
    | none => simp [splitVerb, verbChars]
    | some v =>
      have hv : IsPlain v := hverb v rfl
      have hfail : (v.isEmpty || v.any isDelimiter) = false := by simpa [IsPlain] using hv
      simp [splitVerb, verbChars, hfail]
  | cons c rest ih =>
    cases hnext : depthBehind depth c with
    | none => exact absurd hpath (not_enclosed_cons hnext)
    | some next =>
      obtain ⟨htest, hrest⟩ := (enclosed_cons hnext).1 hpath
      have hcolon : ¬(c = ':' ∧ depth = 0) := by
        rintro ⟨rfl, hdepth⟩
        exact absurd (htest rfl hdepth) (by decide)
      rw [List.cons_append, splitVerb_cons, hnext]
      dsimp only
      rw [if_neg hcolon]
      exact front_eq_ok_iff.2 ⟨rest, ih hrest, rfl⟩

theorem splitVerb_eq_ok_iff {depth : Nat} {cs path : List Char} {verb : Option (List Char)} :
    splitVerb depth cs = .ok (path, verb) ↔
      Enclosed (· != ':') depth path ∧ (∀ v ∈ verb, IsPlain v) ∧ cs = path ++ verbChars verb := by
  refine ⟨splitVerb_sound, ?_⟩
  rintro ⟨hpath, hverb, rfl⟩
  exact splitVerb_complete hpath hverb

/-! ## Parting the segments -/

/-- Joining with one more character in front of the first piece. -/
theorem intercalate_cons_front (sep c : Char) (piece : List Char) (more : List (List Char)) :
    List.intercalate [sep] ((c :: piece) :: more) =
      c :: List.intercalate [sep] (piece :: more) := by
  cases more with
  | nil => simp
  | cons next more => simp [List.intercalate_cons_cons]

/-- Parting the segments, one character at a time. -/
theorem splitSegments_cons (depth : Nat) (c : Char) (rest : List Char) :
    splitSegments depth (c :: rest) =
      match depthBehind depth c with
      | none => .error .unbalancedBrace
      | some next =>
        (splitSegments next rest).map
          (if c = '/' ∧ depth = 0 then ([] :: ·) else extendFirst c) := by
  rw [splitSegments.eq_def]
  unfold depthBehind
  dsimp only
  split
  · rename_i hopen
    subst hopen
    rfl
  · split
    · rename_i hclose
      subst hclose
      cases depth <;> rfl
    · dsimp only
      split <;> rfl

theorem splitSegments_ne_nil (depth : Nat) (cs : List Char) : splitSegments depth cs ≠ .ok [] := by
  cases cs with
  | nil => unfold splitSegments; split <;> simp
  | cons c rest =>
    rw [splitSegments_cons]
    cases depthBehind depth c with
    | none => simp
    | some next =>
      intro h
      obtain ⟨ps, -, hps⟩ := map_eq_ok_iff.1 h
      split at hps
      · cases hps
      · cases ps <;> simp [extendFirst] at hps

theorem splitSegments_sound {depth : Nat} {cs first : List Char} {more : List (List Char)}
    (h : splitSegments depth cs = .ok (first :: more)) :
    Enclosed (· != '/') depth first ∧ (∀ p ∈ more, Enclosed (· != '/') 0 p) ∧
      cs = List.intercalate ['/'] (first :: more) := by
  induction cs generalizing depth first more with
  | nil =>
    unfold splitSegments at h
    split at h
    · rename_i hdepth
      obtain ⟨rfl, rfl⟩ : first = [] ∧ more = [] := by simpa [eq_comm] using h
      exact ⟨hdepth, by simp, rfl⟩
    · cases h
  | cons c rest ih =>
    rw [splitSegments_cons] at h
    cases hnext : depthBehind depth c with
    | none => simp [hnext] at h
    | some next =>
      simp only [hnext] at h
      obtain ⟨ps, hps, heq⟩ := map_eq_ok_iff.1 h
      cases ps with
      | nil => exact absurd hps (splitSegments_ne_nil _ _)
      | cons p ps =>
        obtain ⟨henc, hmore, rfl⟩ := ih hps
        split at heq
        · rename_i hslash
          obtain ⟨rfl, rfl⟩ := hslash
          obtain rfl : 0 = next := Option.some.inj hnext
          obtain ⟨rfl, rfl⟩ := List.cons.inj heq
          exact ⟨rfl, by simpa using ⟨henc, hmore⟩, by simp [List.intercalate_cons_cons]⟩
        · rename_i hslash
          obtain ⟨rfl, rfl⟩ := List.cons.inj heq
          refine ⟨(enclosed_cons hnext).2 ⟨fun _ hdepth => ?_, henc⟩, hmore,
            (intercalate_cons_front ..).symm⟩
          simpa [hdepth] using hslash

/-- A front whose braces fit together and that has no slash outside of them extends the first piece. -/
theorem splitSegments_append {depth : Nat} {front tail piece : List Char} {more : List (List Char)}
    (hfront : Enclosed (· != '/') depth front) (htail : splitSegments 0 tail = .ok (piece :: more)) :
    splitSegments depth (front ++ tail) = .ok ((front ++ piece) :: more) := by
  induction front generalizing depth with
  | nil =>
    obtain rfl : depth = 0 := hfront
    exact htail
  | cons c rest ih =>
    cases hnext : depthBehind depth c with
    | none => exact absurd hfront (not_enclosed_cons hnext)
    | some next =>
      obtain ⟨htest, hrest⟩ := (enclosed_cons hnext).1 hfront
      have hslash : ¬(c = '/' ∧ depth = 0) := by
        rintro ⟨rfl, hdepth⟩
        exact absurd (htest rfl hdepth) (by decide)
      rw [List.cons_append, splitSegments_cons, hnext]
      dsimp only
      rw [if_neg hslash]
      exact map_eq_ok_iff.2 ⟨_, ih hrest, rfl⟩

theorem splitSegments_complete {depth : Nat} {first : List Char} {more : List (List Char)}
    (hfirst : Enclosed (· != '/') depth first) (hmore : ∀ p ∈ more, Enclosed (· != '/') 0 p) :
    splitSegments depth (List.intercalate ['/'] (first :: more)) = .ok (first :: more) := by
  induction more generalizing depth first with
  | nil =>
    have hend : splitSegments 0 [] = .ok [[]] := rfl
    simpa using splitSegments_append hfirst hend
  | cons next more ih =>
    have hrest := ih (hmore next (by simp)) fun p hp => hmore p (by simp [hp])
    have hslash : splitSegments 0 ('/' :: List.intercalate ['/'] (next :: more)) =
        .ok ([] :: next :: more) := by
      simp [splitSegments, hrest, Except.map]
    rw [List.intercalate_cons_cons, List.append_assoc, List.singleton_append]
    simpa using splitSegments_append hfirst hslash

theorem splitSegments_eq_ok_iff {cs : List Char} {ps : List (List Char)} :
    splitSegments 0 cs = .ok ps ↔
      ps ≠ [] ∧ (∀ p ∈ ps, Enclosed (· != '/') 0 p) ∧ cs = List.intercalate ['/'] ps := by
  constructor
  · intro h
    cases ps with
    | nil => exact absurd h (splitSegments_ne_nil _ _)
    | cons first more =>
      obtain ⟨hfirst, hmore, hcs⟩ := splitSegments_sound h
      exact ⟨by simp, by simpa using ⟨hfirst, hmore⟩, hcs⟩
  · rintro ⟨hne, henc, rfl⟩
    cases ps with
    | nil => exact absurd rfl hne
    | cons first more =>
      exact splitSegments_complete (henc first (by simp)) fun p hp => henc p (by simp [hp])

end PathTemplate

end ApiModel
