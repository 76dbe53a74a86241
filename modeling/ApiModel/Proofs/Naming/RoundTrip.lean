import Mathlib
import ApiModel.Proofs.Naming.SnakeCase
import ApiModel.Proofs.Standard.Carrying

/-!
# Spellings of one name

A name is made of words between single underscores.  Pascal case and JSON spelling leave the underscores out
and begin the next word with a capital; snake case finds the words again by these capitals, as long as there
is a small letter or a digit ahead of each of them.  So only the last word may be a letter alone.

Principal results:

* `toList_pascalCase`, `toList_jsonName` — the two spellings of a name, word by word;
* `snakeFrom_words` — reading words that begin with capitals puts underscores between them;
* `snakeCase_roundTrip` — **snake case undoes Pascal case and JSON spelling**, so both are injective on names,
  and a create method of the resource `pascalCase n` looks for its ID under `n_id`.
-/

namespace ApiModel

open ApiModel.Text

namespace Naming

/-! ## Names -/

/-- A small letter or a digit. -/
def IsPlain (c : Char) : Prop := c.isLower = true ∨ c.isDigit = true

instance (c : Char) : Decidable (IsPlain c) := inferInstanceAs (Decidable (_ ∨ _))

/-- A word is a small letter with small letters and digits behind it. -/
structure IsWord (w : List Char) : Prop where
  begins : w.head?.any Char.isLower = true
  plain : ∀ c ∈ w, IsPlain c

instance (w : List Char) : Decidable (IsWord w) :=
  decidable_of_iff (w.head?.any Char.isLower = true ∧ w.all (IsPlain ·) = true)
    ⟨fun h => ⟨h.1, by simpa using h.2⟩, fun h => ⟨h.begins, by simpa using h.plain⟩⟩

/-- Words of which all but the last are two characters long at least. -/
structure AreWords (words : List (List Char)) : Prop where
  word : ∀ w ∈ words, IsWord w
  long : ∀ w ∈ words.dropLast, 2 ≤ w.length

/-- The name is made of the words, with an underscore between neighbours. -/
structure IsNameOf (words : List (List Char)) (n : String) : Prop extends AreWords words where
  given : words ≠ []
  spelled : n.toList = List.intercalate ['_'] words

/-- The name is made of words. -/
def IsName (n : String) : Prop := ∃ words, IsNameOf words n

variable {w more out : List Char} {words : List (List Char)} {c d : Char} {n : String}
  {prev : Option Char}

/-! ## Characters of words -/

section Plain

variable (h : IsPlain c)

include h

theorem IsPlain.code : 48 ≤ c.toNat ∧ c.toNat ≤ 57 ∨ 97 ≤ c.toNat ∧ c.toNat ≤ 122 := by
  rcases h with h | h
  · simp only [Char.isLower, Bool.and_eq_true, decide_eq_true_eq] at h
    exact .inr ⟨UInt32.le_iff_toNat_le.1 h.1, UInt32.le_iff_toNat_le.1 h.2⟩
  · simp only [Char.isDigit, Bool.and_eq_true, decide_eq_true_eq] at h
    exact .inl ⟨UInt32.le_iff_toNat_le.1 h.1, UInt32.le_iff_toNat_le.1 h.2⟩

theorem IsPlain.toNat_lt : c.toNat < 0x80 := by
  have hcode := h.code
  omega

theorem IsPlain.not_capital : isUpperLetter c = false := by
  rw [isUpperLetter, if_pos h.toNat_lt]
  rcases h with h | h
  · exact Bool.eq_false_iff.2 (Char.not_isUpper_of_isLower h)
  · refine Bool.eq_false_iff.2 fun hupper => ?_
    have hcode := (show IsPlain c from .inr h).code
    simp only [Char.isUpper, decide_eq_true_eq] at hupper
    have hfirst : 65 ≤ c.toNat := UInt32.le_iff_toNat_le.1 hupper.1
    have hlast : c.toNat ≤ 90 := UInt32.le_iff_toNat_le.1 hupper.2
    omega

theorem IsPlain.ne_underscore : c ≠ '_' := by
  rintro rfl
  exact absurd h.code (by decide)

theorem IsPlain.not_joint : isJoint c = false := by
  refine isJoint_eq_false_iff.2 ⟨?_, ?_, ?_⟩ <;>
    · rintro rfl
      exact absurd h.code (by decide)

theorem IsPlain.copied : isUpperLetter c = false ∧ isJoint c = false := ⟨h.not_capital, h.not_joint⟩

/-- A capital behind the character begins a word. -/
theorem IsPlain.beginsWord (next : Option Char) : beginsWord (some c) next = true := by
  have hlower : isLowerLetter c = c.isLower := by
    rw [isLowerLetter, if_pos h.toNat_lt]
  rcases h with h | h <;> simp [Naming.beginsWord, hlower, h]

end Plain

theorem IsWord.eq_cons (h : IsWord w) :
    ∃ c more, w = c :: more ∧ c.isLower = true ∧ ∀ d ∈ more, IsPlain d := by
  obtain ⟨c, hc, hlower⟩ := (Option.any_eq_true _ _).1 h.begins
  obtain ⟨more, rfl⟩ := List.head?_eq_some_iff.1 hc
  exact ⟨c, more, rfl, hlower, fun d hd => h.plain d (List.mem_cons_of_mem c hd)⟩

theorem AreWords.of_cons (h : AreWords (w :: words)) :
    IsWord w ∧ (words ≠ [] → 2 ≤ w.length) ∧ AreWords words := by
  obtain ⟨hw, hwords⟩ := List.forall_mem_cons.1 h.word
  cases words with
  | nil => exact ⟨hw, fun hne => absurd rfl hne, hwords, by simp⟩
  | cons v words =>
    obtain ⟨hlong, hlongs⟩ := List.forall_mem_cons.1 h.long
    exact ⟨hw, fun _ => hlong, hwords, hlongs⟩

/-- Words that are not the last do not end with their first letter. -/
theorem AreWords.tail_ne_nil (h : AreWords ((c :: more) :: words)) (hne : words ≠ []) : more ≠ [] := by
  rintro rfl
  exact absurd (h.of_cons.2.1 hne) (by simp)

theorem IsWord.underscore_notMem (h : IsWord w) : '_' ∉ w := fun hmem =>
  (h.plain '_' hmem).ne_underscore rfl

theorem capitalised_cons (h : c.isLower = true) : capitalised (c :: more) = c.toUpper :: more := by
  rw [capitalised, capital, if_pos (show IsPlain c from .inl h).toNat_lt]
  rfl

theorem isUpperLetter_toUpper (h : c.isLower = true) : isUpperLetter c.toUpper = true :=
  isUpperLetter_of_isUpper (by rw [Char.isUpper_toUpper_eq_isAlpha, Char.isAlpha, h, Bool.or_true])

theorem toLower_toUpper (h : c.isLower = true) : c.toUpper.toLower = c := by
  rw [Char.toLower_toUpper_eq_toLower, Char.toLower_eq_of_not_isUpper (Char.not_isUpper_of_isLower h)]

/-! ## Names are in snake case -/

theorem intercalate_cons (w : List Char) (words : List (List Char)) :
    List.intercalate ['_'] (w :: words) = w ++ words.flatMap ('_' :: ·) := by
  induction words generalizing w with
  | nil => simp
  | cons v words ih =>
    rw [List.intercalate_cons_cons, ih, List.flatMap_cons, List.append_assoc]
    rfl

/-- Characters that are no underscores make no pair of them in front of a text. -/
theorem not_pair_append {s : List Char} (hw : '_' ∉ w) (hs : ¬ ['_', '_'] <:+: s) :
    ¬ ['_', '_'] <:+: w ++ s := by
  induction w with
  | nil => exact hs
  | cons c w ih =>
    obtain ⟨hc, hw⟩ := not_or.1 (List.mem_cons.not.1 hw)
    rw [List.cons_append, List.infix_cons_iff, not_or]
    refine ⟨fun h => hc ?_, ih hw⟩
    exact (List.cons_prefix_cons.1 h).1

theorem not_pair_intercalate (h : ∀ w ∈ words, IsWord w) :
    ¬ ['_', '_'] <:+: List.intercalate ['_'] words := by
  induction words with
  | nil => simp
  | cons w words ih =>
    obtain ⟨hw, hwords⟩ := List.forall_mem_cons.1 h
    cases words with
    | nil =>
      have hnone := not_pair_append (s := []) hw.underscore_notMem (by simp)
      simpa using hnone
    | cons v words =>
      rw [List.intercalate_cons_cons, List.append_assoc]
      refine not_pair_append hw.underscore_notMem ?_
      rw [List.singleton_append, List.infix_cons_iff, not_or]
      refine ⟨fun hpair => ?_, ih hwords⟩
      -- the next word would begin with an underscore
      obtain ⟨c, more, rfl, -, -⟩ := (hwords v (List.mem_cons_self ..)).eq_cons
      rw [intercalate_cons] at hpair
      have hc := (List.cons_prefix_cons.1 (List.cons_prefix_cons.1 hpair).2).1
      exact (hwords _ (List.mem_cons_self ..)).underscore_notMem (hc ▸ List.mem_cons_self ..)

theorem getLast?_intercalate (h : ∀ w ∈ words, IsWord w) :
    (List.intercalate ['_'] words).getLast? ≠ some '_' := by
  induction words with
  | nil => simp
  | cons w words ih =>
    obtain ⟨hw, hwords⟩ := List.forall_mem_cons.1 h
    cases words with
    | nil =>
      rw [List.intercalate_singleton]
      exact fun hlast => hw.underscore_notMem (List.mem_of_getLast? hlast)
    | cons v words =>
      have hne : List.intercalate ['_'] (v :: words) ≠ [] := by
        obtain ⟨c, more, rfl, -, -⟩ := (hwords v (List.mem_cons_self ..)).eq_cons
        rw [intercalate_cons]
        exact List.cons_ne_nil _ _
      rw [List.intercalate_cons_cons, List.getLast?_append_of_ne_nil _ hne]
      exact ih hwords

theorem IsNameOf.mem (h : IsNameOf words n) (hc : c ∈ n.toList) : c = '_' ∨ IsPlain c := by
  rw [h.spelled] at hc
  refine (eq_sep_or_mem_of_mem_intercalate hc).imp_right ?_
  rintro ⟨w, hw, hc⟩
  exact (h.word w hw).plain c hc

theorem IsNameOf.not_joint (h : IsNameOf words n) (hc : c ∈ n.toList) : isJoint c = false := by
  rcases h.mem hc with rfl | hplain
  · rfl
  · exact hplain.not_joint

theorem IsNameOf.isSnake (h : IsNameOf words n) : IsSnake n.toList where
  single := by
    rw [h.spelled]
    exact not_pair_intercalate h.word
  jointless c hc := isJoint_eq_false_iff.1 (h.not_joint hc)
  begins := by
    obtain ⟨w, rest, hwords⟩ := List.exists_cons_of_ne_nil h.given
    have hw := h.word w (by simp [hwords])
    obtain ⟨c, more, rfl, hc, -⟩ := hw.eq_cons
    rw [h.spelled, hwords, intercalate_cons]
    simpa using (show IsPlain c from .inl hc).ne_underscore
  ends := by
    rw [h.spelled]
    exact getLast?_intercalate h.word

/-! ## Reading capitals -/

/-- A capital behind a small letter or a digit is written small, behind an underscore. -/
theorem snakeFrom_capital {p : Char} (hp : IsPlain p) (hc : c.isLower = true) (s : List Char) :
    snakeFrom (some p) (p :: out) (c.toUpper :: s) = snakeFrom (some c.toUpper) (c :: '_' :: p :: out) s := by
  have hunderscored : underscored (p :: out) = '_' :: p :: out := by
    rw [underscored, if_neg (by simpa using hp.ne_underscore)]
  rw [snakeFrom, if_pos (isUpperLetter_toUpper hc)]
  simp only [hp.beginsWord, if_true, hunderscored, toLower_toUpper hc]

/-- Reading the rest of a word and the words behind it, each of which begins with a capital, puts an underscore
ahead of each of these. -/
theorem snakeFrom_words (hmore : ∀ c ∈ more, IsPlain c) (hlong : words ≠ [] → more ≠ [])
    (hwords : AreWords words) :
    snakeFrom prev out (more ++ words.flatMap capitalised) =
      (more ++ words.flatMap ('_' :: ·)).reverse ++ out := by
  rw [snakeFrom_append fun c hc => (hmore c hc).copied]
  induction words generalizing prev out more with
  | nil => simp [snakeFrom]
  | cons w words ih =>
    obtain ⟨hw, -, hrest⟩ := hwords.of_cons
    obtain ⟨c, tail, rfl, hc, htail⟩ := hw.eq_cons
    -- what is written last is the character ahead of the capital
    obtain ⟨init, p, rfl⟩ := (List.eq_nil_or_concat' more).resolve_left (hlong (List.cons_ne_nil _ _))
    have hp : IsPlain p := hmore p (by simp)
    rw [List.flatMap_cons, capitalised_cons hc, List.getLast?_concat, List.reverse_concat,
      List.cons_append, List.cons_append, Option.some_or, snakeFrom_capital hp hc,
      snakeFrom_append fun d hd => (htail d hd).copied, ih htail hwords.tail_ne_nil hrest]
    simp

/-- What begins with a letter, small or capital, is read as the name if the rest of its words is. -/
theorem snakeFrom_name (h : AreWords ((c :: more) :: words)) (hc : c.isLower = true) :
    snakeFrom none [] (c.toUpper :: (more ++ words.flatMap capitalised)) =
        (List.intercalate ['_'] ((c :: more) :: words)).reverse ∧
      snakeFrom none [] (c :: (more ++ words.flatMap capitalised)) =
        (List.intercalate ['_'] ((c :: more) :: words)).reverse := by
  obtain ⟨hw, -, hwords⟩ := h.of_cons
  have hmore : ∀ d ∈ more, IsPlain d := fun d hd => hw.plain d (List.mem_cons_of_mem c hd)
  have hplain : IsPlain c := .inl hc
  rw [intercalate_cons]
  constructor
  · rw [snakeFrom, if_pos (isUpperLetter_toUpper hc), toLower_toUpper hc]
    simp only [beginsWord, Bool.false_eq_true, if_false]
    rw [snakeFrom_words hmore h.tail_ne_nil hwords]
    simp
  · rw [snakeFrom, hplain.not_capital, hplain.not_joint, if_neg Bool.false_ne_true,
      if_neg Bool.false_ne_true, snakeFrom_words hmore h.tail_ne_nil hwords]
    simp

/-! ## The spellings -/

theorem pieces_congr {p q : Char → Bool} {s : List Char} (h : ∀ c ∈ s, p c = q c) :
    pieces p s = pieces q s := by
  induction s with
  | nil => rfl
  | cons c rest ih =>
    obtain ⟨hc, hrest⟩ := List.forall_mem_cons.1 h
    simp only [pieces, hc, ih hrest]

/-- Pascal case begins every word with a capital. -/
theorem toList_pascalCase (h : IsNameOf words n) :
    (pascalCase n).toList = words.flatMap capitalised := by
  have hpieces : pieces (fun c => c == '_' || isJoint c) n.toList = words := by
    rw [pieces_congr fun c hc => by rw [h.not_joint hc, Bool.or_false], h.spelled]
    exact pieces_intercalate h.given fun w hw => (h.word w hw).underscore_notMem
  rw [pascalCase, String.toList_ofList, hpieces]

theorem camelFrom_append (hw : '_' ∉ w) (s : List Char) :
    camelFrom false (w ++ s) = w ++ camelFrom false s := by
  induction w with
  | nil => rfl
  | cons c w ih =>
    obtain ⟨hc, hw⟩ := not_or.1 (List.mem_cons.not.1 hw)
    rw [List.cons_append, camelFrom, if_neg (Ne.symm hc), ih hw]
    rfl

theorem camelFrom_words (h : ∀ w ∈ words, IsWord w) :
    camelFrom false (words.flatMap ('_' :: ·)) = words.flatMap capitalised := by
  induction words with
  | nil => rfl
  | cons w words ih =>
    obtain ⟨hw, hwords⟩ := List.forall_mem_cons.1 h
    obtain ⟨c, more, rfl, hc, hmore⟩ := hw.eq_cons
    have hne : c ≠ '_' := (show IsPlain c from .inl hc).ne_underscore
    have hnone : '_' ∉ more := fun hmem => (hmore _ hmem).ne_underscore rfl
    rw [List.flatMap_cons, List.flatMap_cons, capitalised_cons hc, List.cons_append, List.cons_append,
      camelFrom, if_pos rfl, camelFrom, if_neg hne, camelFrom_append hnone, ih hwords]
    rfl

/-- The JSON spelling begins every word but the first with a capital. -/
theorem toList_jsonName (h : IsNameOf (w :: words) n) :
    (jsonName n).toList = w ++ words.flatMap capitalised := by
  rw [jsonName, String.toList_ofList, h.spelled, intercalate_cons,
    camelFrom_append (h.word w (List.mem_cons_self ..)).underscore_notMem,
    camelFrom_words fun v hv => h.word v (List.mem_cons_of_mem w hv)]

/-- What is read as the name is the name in snake case. -/
theorem snakeCase_eq_of_reads {s : String} (h : IsNameOf words n)
    (hreads : snakeFrom none [] s.toList = n.toList.reverse) : snakeCase s = n := by
  refine String.toList_injective ?_
  rw [toList_snakeCase, hreads, List.reverse_reverse, collapse_eq_self h.isSnake.single,
    strip_eq_self h.isSnake.begins h.isSnake.ends]

theorem snakeCase_pascalCase (h : IsName n) : snakeCase (pascalCase n) = n := by
  obtain ⟨words, h⟩ := h
  refine snakeCase_eq_of_reads h ?_
  obtain ⟨w, rest, rfl⟩ := List.exists_cons_of_ne_nil h.given
  obtain ⟨c, more, rfl, hc, -⟩ := (h.word w (List.mem_cons_self ..)).eq_cons
  rw [toList_pascalCase h, h.spelled, List.flatMap_cons, capitalised_cons hc]
  exact (snakeFrom_name h.toAreWords hc).1

theorem snakeCase_jsonName (h : IsName n) : snakeCase (jsonName n) = n := by
  obtain ⟨words, h⟩ := h
  refine snakeCase_eq_of_reads h ?_
  obtain ⟨w, rest, rfl⟩ := List.exists_cons_of_ne_nil h.given
  obtain ⟨c, more, rfl, hc, -⟩ := (h.word w (List.mem_cons_self ..)).eq_cons
  rw [toList_jsonName h, h.spelled]
  exact (snakeFrom_name h.toAreWords hc).2

end Naming

/-! ## The ID field of a create request -/

namespace Standard

variable {api : Api} {m : Method} {request : Message} {recorded : CreateFields} {head : List Char} {n : String}

/-- A create method whose subject is the Pascal case of a name records the text field of its request under the
name of its ID, if there is one. -/
theorem resourceId_of_isName (hn : Naming.IsName n)
    (hname : m.name.toList = head ++ (Naming.pascalCase n).toList)
    (hhead : sameLetters head "create".toList = true)
    (hrequest : api.message? m.inputTypeId = some request)
    (hrecorded : (m.classify api).standard.create = some recorded) :
    recorded.resourceId = ((request.field? (n ++ "_id")).filter (·.isString)).map (·.name) := by
  obtain ⟨input, subject, _, _, _, _, hcreates⟩ := createFields?_eq_some_iff.1 hrecorded
  obtain rfl : request = input := Option.some.inj (hrequest.symm.trans hcreates.writes.input)
  -- the subject is what stands behind the verb, in both readings of the method's name
  obtain ⟨verb, hverb, hletters⟩ := hcreates.writes.named.method
  have hlength : head.length = verb.length :=
    (length_eq_of_sameLetters hhead).trans (length_eq_of_sameLetters hletters).symm
  obtain rfl : (Naming.pascalCase n).toList = subject :=
    (List.append_inj (hname.symm.trans hverb) hlength).2
  refine Option.ext fun name => ?_
  have hid : _ ↔ HasIdField request (Naming.pascalCase n).toList name := idField?_eq_some_iff
  rw [String.ofList_toList, Naming.snakeCase_pascalCase hn] at hid
  rw [hcreates.resourceId, hid]

end Standard

namespace Naming

/-- **Snake case undoes Pascal case and JSON spelling** on all names, so both are injective on them, and a create
method of a resource in Pascal case looks up the ID of the resource under the name itself. -/
theorem snakeCase_roundTrip :
    (∀ n, IsName n → snakeCase (pascalCase n) = n ∧ snakeCase (jsonName n) = n) ∧
      Set.InjOn pascalCase {n | IsName n} ∧ Set.InjOn jsonName {n | IsName n} ∧
      ∀ n, IsName n → ∀ (api : Api) (m : Method) (request : Message) (recorded : CreateFields) (head : List Char),
        m.name.toList = head ++ (pascalCase n).toList → sameLetters head "create".toList = true →
        api.message? m.inputTypeId = some request →
        (m.classify api).standard.create = some recorded →
        recorded.resourceId = ((request.field? (n ++ "_id")).filter (·.isString)).map (·.name) := by
  refine ⟨fun n hn => ⟨snakeCase_pascalCase hn, snakeCase_jsonName hn⟩, ?_, ?_, ?_⟩
  · exact Set.LeftInvOn.injOn fun n hn => snakeCase_pascalCase hn
  · exact Set.LeftInvOn.injOn fun n hn => snakeCase_jsonName hn
  · intro n hn api m request recorded head hname hhead hrequest hrecorded
    exact Standard.resourceId_of_isName hn hname hhead hrequest hrecorded

end Naming

/-- A network in which ranges of addresses are created. -/
def Api.network : Api :=
  let range := { Message.new "Ipv4RangeX" "v1" none with resource := some { kind := "network/Ipv4RangeX" } }
  let request := Message.new "CreateIpv4RangeXRequest" "v1" none
  let request := request.addField { name := "parent", jsonName := "parent", kind := .string }
  let request := request.addField { name := "ipv4_range_x_id", jsonName := "ipv4RangeXId", kind := .string }
  let request := request.addField
    { name := "range", jsonName := "range", kind := .message, typeId := range.id }
  (({ name := "network", package := "v1" } : Api).addMessage range).addMessage request

/-- The method that creates ranges. -/
def Method.creatingRanges : Method :=
  .new (.new "Network" "v1") "CREATEIpv4RangeX" ".v1.CreateIpv4RangeXRequest" ".v1.Ipv4RangeX"

theorem Naming.snakeCase_roundTrip_network :
    IsName "ipv4_range_x" ∧ pascalCase "ipv4_range_x" = "Ipv4RangeX" ∧ jsonName "ipv4_range_x" = "ipv4RangeX" ∧
      snakeCase (pascalCase "ipv4_range_x") = "ipv4_range_x" ∧
      snakeCase (jsonName "ipv4_range_x") = "ipv4_range_x" ∧
      ∃ recorded, (Method.creatingRanges.classify .network).standard.create = some recorded ∧
        recorded.resourceId = some "ipv4_range_x_id" := by
  have hname : IsName "ipv4_range_x" :=
    ⟨["ipv4".toList, "range".toList, "x".toList], ⟨by decide, by decide⟩, by decide, by decide⟩
  have hpascal : pascalCase "ipv4_range_x" = "Ipv4RangeX" := by decide +kernel
  obtain ⟨hspelled, -, -, hid⟩ := snakeCase_roundTrip
  refine ⟨hname, hpascal, by decide +kernel, (hspelled _ hname).1, (hspelled _ hname).2, _, rfl, ?_⟩
  refine (hid _ hname .network .creatingRanges _ _ "CREATE".toList ?_ ?_ rfl rfl).trans ?_
  · rw [hpascal]
    decide
  · decide
  · rfl

end ApiModel
