import Mathlib
import ApiModel.Naming

/-!
# Snake case as a normal form

A text in snake case holds nothing that parts words but underscores, and these stand one at a time between
other characters.

`collapse` takes every run of underscores at once.  The same is reached in passes, each of which replaces the
pairs of underscores from the left; a pass that finds a pair makes the text shorter.

Principal results:

* `exists_replacesIn` — **the passes come to an end**, and what they end with is the collapsed text;
* `filter_snakeFrom` — the other characters stay, in their order, with the capitals lowered;
* `snakeCase_eq_self` — what is in snake case and has no capitals stays as it is;
* `snakeCase_spec` — **every text is brought into snake case**, and ASCII text in one step.
-/

namespace ApiModel.Naming

open ApiModel.Text

variable {s t out : List Char} {prev : Option Char}

/-! ## The normal form -/

/-- The text is in snake case. -/
structure IsSnake (s : List Char) : Prop where
  single : ¬ ['_', '_'] <:+: s
  jointless : ∀ c ∈ s, c ≠ '-' ∧ c ≠ ' ' ∧ c ≠ '.'
  begins : s.head? ≠ some '_'
  ends : s.getLast? ≠ some '_'

/-! ## Replacing pairs -/

/-- One pass: from the left, every pair of underscores becomes one underscore. -/
def replacePairs : List Char → List Char
  | [] => []
  | [c] => [c]
  | c :: d :: rest =>
    if c = '_' ∧ d = '_' then '_' :: replacePairs rest else c :: replacePairs (d :: rest)

/-- The passes end with `t` behind the first `n`: there is a pair ahead of each of them, and none in `t`. -/
structure ReplacesIn (n : Nat) (s t : List Char) : Prop where
  result : replacePairs^[n] s = t
  goesOn : ∀ k < n, ['_', '_'] <:+: replacePairs^[k] s
  stops : ¬ ['_', '_'] <:+: t

theorem head?_replacePairs (s : List Char) : (replacePairs s).head? = s.head? := by
  fun_induction replacePairs s with
  | case1 | case2 | case4 => rfl
  | case3 c d rest h => simp [h.1]

theorem collapse_cons (c : Char) (s : List Char) :
    collapse (c :: s) = if c = '_' ∧ s.head? = some '_' then collapse s else c :: collapse s := by
  cases s with
  | nil => simp [collapse]
  | cons d rest => simp [collapse]

theorem collapse_replacePairs (s : List Char) : collapse (replacePairs s) = collapse s := by
  fun_induction replacePairs s with
  | case1 | case2 => rfl
  | case3 c d rest h ih =>
    obtain ⟨rfl, rfl⟩ := h
    have hfirst : collapse ('_' :: '_' :: rest) = collapse ('_' :: rest) := by
      rw [collapse_cons, if_pos ⟨rfl, rfl⟩]
    rw [hfirst, collapse_cons, collapse_cons, head?_replacePairs, ih]
  | case4 c d rest h ih => rw [collapse_cons, collapse_cons, head?_replacePairs, ih]

theorem length_replacePairs_le (s : List Char) : (replacePairs s).length ≤ s.length := by
  fun_induction replacePairs s with
  | case1 | case2 => exact Nat.le_refl _
  | case3 c d rest _ ih =>
    simp only [List.length_cons]
    omega
  | case4 c d rest _ ih => exact Nat.succ_le_succ ih

/-- A pass that finds a pair makes the text shorter. -/
theorem length_replacePairs_lt (h : ['_', '_'] <:+: s) : (replacePairs s).length < s.length := by
  fun_induction replacePairs s with
  | case1 => simp at h
  | case2 c => simpa using h.length_le
  | case3 c d rest _ ih =>
    have := length_replacePairs_le rest
    simp only [List.length_cons]
    omega
  | case4 c d rest hnot ih =>
    refine Nat.succ_lt_succ (ih ?_)
    rcases List.infix_cons_iff.1 h with hfront | hrest
    · obtain ⟨rfl, hd⟩ := List.cons_prefix_cons.1 hfront
      obtain ⟨rfl, -⟩ := List.cons_prefix_cons.1 hd
      exact absurd ⟨rfl, rfl⟩ hnot
    · exact hrest

/-- Without a pair nothing is collapsed. -/
theorem collapse_eq_self (h : ¬ ['_', '_'] <:+: s) : collapse s = s := by
  induction s with
  | nil => rfl
  | cons c rest ih =>
    rw [List.infix_cons_iff, not_or] at h
    rw [collapse_cons, ih h.2, if_neg]
    rintro ⟨rfl, hrest⟩
    obtain ⟨more, rfl⟩ := List.head?_eq_some_iff.1 hrest
    exact h.1 ⟨more, rfl⟩

/-- **The passes come to an end**, and what they end with is the collapsed text. -/
theorem exists_replacesIn (s : List Char) : ∃ n ≤ s.length, ReplacesIn n s (collapse s) := by
  induction hlength : s.length using Nat.strongRecOn generalizing s with
  | _ length ih =>
    subst hlength
    by_cases h : ['_', '_'] <:+: s
    · have hshorter := length_replacePairs_lt h
      obtain ⟨n, hn, hpasses⟩ := ih _ hshorter (replacePairs s) rfl
      rw [collapse_replacePairs] at hpasses
      refine ⟨n + 1, by omega, hpasses.result, fun k hk => ?_, hpasses.stops⟩
      cases k with
      | zero => exact h
      | succ k => exact hpasses.goesOn k (by omega)
    · rw [collapse_eq_self h]
      exact ⟨0, Nat.zero_le _, rfl, fun k hk => absurd hk (Nat.not_lt_zero k), h⟩

/-! ## Stripping -/

theorem ne_of_head?_dropWhile : (s.dropWhile (· == '_')).head? ≠ some '_' := by
  intro h
  have hnot := List.head?_dropWhile_not (· == '_') s
  rw [h] at hnot
  cases hnot

theorem isPrefix_strip (s : List Char) : strip s <+: s.dropWhile (· == '_') :=
  List.reverse_suffix.1 (by
    rw [strip, List.reverse_reverse]
    exact List.dropWhile_suffix _)

theorem isInfix_strip (s : List Char) : strip s <:+: s :=
  (isPrefix_strip s).isInfix.trans (List.dropWhile_suffix _).isInfix

theorem head?_strip_ne (s : List Char) : (strip s).head? ≠ some '_' := by
  intro h
  obtain ⟨rest, hrest⟩ := List.head?_eq_some_iff.1 h
  obtain ⟨more, hmore⟩ := isPrefix_strip s
  refine ne_of_head?_dropWhile (s := s) ?_
  rw [← hmore, hrest]
  rfl

theorem getLast?_strip_ne (s : List Char) : (strip s).getLast? ≠ some '_' := by
  rw [strip, List.getLast?_reverse]
  exact ne_of_head?_dropWhile

/-- Without underscores at its ends a text stays whole. -/
theorem strip_eq_self (hbegins : s.head? ≠ some '_') (hends : s.getLast? ≠ some '_') : strip s = s := by
  have hkept : ∀ s : List Char, s.head? ≠ some '_' → s.dropWhile (· == '_') = s := by
    intro s hs
    cases s with
    | nil => rfl
    | cons c rest => exact List.dropWhile_cons_of_neg (by simpa using hs)
  rw [strip, hkept s hbegins, hkept _ (by rwa [List.head?_reverse]), List.reverse_reverse]

/-! ## Characters -/

theorem toList_snakeCase (s : String) :
    (snakeCase s).toList = strip (collapse (snakeFrom none [] s.toList).reverse) := String.toList_ofList

/-- What holds of the characters that are written holds of the snake case. -/
theorem forall_mem_snakeCase {P : Char → Prop} {s : String} (hunderscore : P '_')
    (hcapital : ∀ c ∈ s.toList, isUpperLetter c = true → P c.toLower)
    (hother : ∀ c ∈ s.toList, isUpperLetter c = false → isJoint c = false → P c) :
    ∀ c ∈ (snakeCase s).toList, P c := by
  intro c hc
  rw [toList_snakeCase] at hc
  have hc := List.mem_reverse.1 (mem_of_mem_collapse (mem_of_mem_strip hc))
  exact forall_mem_snakeFrom hunderscore hcapital hother (fun d hd => absurd hd List.not_mem_nil) c hc

theorem isUpper_of_isUpperLetter {c : Char} (h : isUpperLetter c = true) (hascii : c.toNat < 0x80) :
    c.isUpper = true := by
  rwa [isUpperLetter, if_pos hascii] at h

theorem isUpperLetter_of_isUpper {c : Char} (h : c.isUpper = true) : isUpperLetter c = true := by
  have hlast : c.toNat ≤ 90 := by
    simp only [Char.isUpper, decide_eq_true_eq] at h
    exact UInt32.le_iff_toNat_le.1 h.2
  rw [isUpperLetter, if_pos (by omega)]
  exact h

theorem isUpperLetter_of_isLower {c : Char} (h : c.isLower = true) : isUpperLetter c = false := by
  have hlast : c.toNat ≤ 122 := by
    simp only [Char.isLower, Bool.and_eq_true, decide_eq_true_eq] at h
    exact UInt32.le_iff_toNat_le.1 h.2
  rw [isUpperLetter, if_pos (by omega)]
  exact Bool.eq_false_iff.2 (Char.not_isUpper_of_isLower h)

/-- Only capitals change in lower case. -/
theorem toLower_eq_self {c : Char} (h : isUpperLetter c = false) : c.toLower = c := by
  refine Char.toLower_eq_of_not_isUpper fun hupper => ?_
  rw [isUpperLetter_of_isUpper hupper] at h
  cases h

/-- No capital has a separator as its lower case. -/
theorem toLower_ne {c d : Char} (h : isUpperLetter c = true) (hd : d.isAlpha = false)
    (hupper : isUpperLetter d = false) : c.toLower ≠ d := by
  rintro rfl
  rw [Char.isAlpha_toLower_eq_isAlpha, Char.isAlpha, Bool.or_eq_false_iff] at hd
  rw [Char.toLower_eq_of_not_isUpper (by simp [hd.1])] at hupper
  rw [h] at hupper
  cases hupper

theorem isJoint_eq_false_iff {c : Char} : isJoint c = false ↔ c ≠ '-' ∧ c ≠ ' ' ∧ c ≠ '.' := by
  simp [isJoint, and_assoc]

theorem isJoint_eq_false_of_isUpperLetter {c : Char} (h : isUpperLetter c = true) :
    isJoint c = false := by
  refine isJoint_eq_false_iff.2 ⟨?_, ?_, ?_⟩ <;>
    · rintro rfl
      exact absurd h (by decide)

theorem jointless_snakeCase (s : String) :
    ∀ c ∈ (snakeCase s).toList, c ≠ '-' ∧ c ≠ ' ' ∧ c ≠ '.' := by
  refine forall_mem_snakeCase (by decide) ?_ ?_
  · intro c _ hupper
    exact ⟨toLower_ne hupper (by decide) (by decide), toLower_ne hupper (by decide) (by decide),
      toLower_ne hupper (by decide) (by decide)⟩
  · exact fun _ _ _ hjoint => isJoint_eq_false_iff.1 hjoint

theorem isSnake_snakeCase (s : String) : IsSnake (snakeCase s).toList where
  single := by
    rw [toList_snakeCase]
    exact fun h => collapse_no_double _ (h.trans (isInfix_strip _))
  jointless := jointless_snakeCase s
  begins := by
    rw [toList_snakeCase]
    exact head?_strip_ne _
  ends := by
    rw [toList_snakeCase]
    exact getLast?_strip_ne _

/-! ## What stays -/

theorem filter_collapse (s : List Char) :
    (collapse s).filter (· != '_') = s.filter (· != '_') := by
  induction s with
  | nil => rfl
  | cons c rest ih =>
    rw [collapse_cons]
    split
    · next h => rw [ih, h.1, List.filter_cons_of_neg (by simp)]
    · rw [List.filter_cons, List.filter_cons, ih]

theorem filter_dropWhile (s : List Char) :
    (s.dropWhile (· == '_')).filter (· != '_') = s.filter (· != '_') := by
  induction s with
  | nil => rfl
  | cons c rest ih =>
    by_cases hc : c = '_'
    · rw [List.dropWhile_cons_of_pos (by simpa using hc), ih, List.filter_cons_of_neg (by simpa using hc)]
    · rw [List.dropWhile_cons_of_neg (by simpa using hc)]

theorem filter_strip (s : List Char) : (strip s).filter (· != '_') = s.filter (· != '_') := by
  rw [strip, List.filter_reverse, filter_dropWhile, List.filter_reverse, List.reverse_reverse,
    filter_dropWhile]

theorem filter_underscored (out : List Char) :
    (underscored out).filter (· != '_') = out.filter (· != '_') := by
  unfold underscored
  split
  · rfl
  · exact List.filter_cons_of_neg (by simp)

/-- The other characters stay, in their order, with the capitals lowered. -/
theorem filter_snakeFrom (prev : Option Char) (out s : List Char) :
    ((snakeFrom prev out s).filter (· != '_')).reverse = (out.filter (· != '_')).reverse ++
      foldCase (s.filter fun c => c != '_' && !isJoint c) := by
  induction s generalizing prev out with
  | nil => simp [snakeFrom, foldCase]
  | cons c rest ih =>
    unfold snakeFrom
    split
    · next hupper =>
      have hletter : c ≠ '_' := by
        rintro rfl
        exact absurd hupper (by decide)
      have hlower : c.toLower ≠ '_' := toLower_ne hupper (by decide) (by decide)
      have hout : (if beginsWord prev rest.head? then underscored out else out).filter (· != '_') =
          out.filter (· != '_') := by
        split
        · exact filter_underscored out
        · rfl
      rw [ih, List.filter_cons_of_pos (by simpa using hlower), hout, List.filter_cons_of_pos
        (by simp [hletter, isJoint_eq_false_of_isUpperLetter hupper])]
      simp [foldCase]
    · next hupper =>
      split
      · next hjoint =>
        have hout : (if out.isEmpty then out else underscored out).filter (· != '_') =
            out.filter (· != '_') := by
          split
          · rfl
          · exact filter_underscored out
        rw [ih, hout, List.filter_cons_of_neg (by simp [hjoint])]
      · next hjoint =>
        rw [ih]
        by_cases hc : c = '_'
        · rw [List.filter_cons_of_neg (by simpa using hc), List.filter_cons_of_neg (by simp [hc])]
        · have hself := toLower_eq_self (by simpa using hupper)
          rw [List.filter_cons_of_pos (by simpa using hc),
            List.filter_cons_of_pos (by simp [hc, Bool.eq_false_iff.2 hjoint])]
          simp [foldCase, hself]

theorem filter_snakeCase (s : String) :
    (snakeCase s).toList.filter (· != '_') =
      foldCase (s.toList.filter fun c => c != '_' && !isJoint c) := by
  rw [toList_snakeCase, filter_strip, filter_collapse, List.filter_reverse, filter_snakeFrom]
  rfl

/-! ## Texts in snake case -/

/-- Characters that neither begin nor part words are copied. -/
theorem snakeFrom_append (h : ∀ c ∈ s, isUpperLetter c = false ∧ isJoint c = false) :
    snakeFrom prev out (s ++ t) = snakeFrom (s.getLast?.or prev) (s.reverse ++ out) t := by
  induction s generalizing prev out with
  | nil => rfl
  | cons c rest ih =>
    obtain ⟨⟨hupper, hjoint⟩, hrest⟩ := List.forall_mem_cons.1 h
    have hlast : (c :: rest).getLast?.or prev = rest.getLast?.or (some c) := by
      cases rest with
      | nil => rfl
      | cons d rest => simp [List.getLast?_cons]
    rw [List.cons_append, snakeFrom, hupper, hjoint, if_neg Bool.false_ne_true, if_neg Bool.false_ne_true,
      ih hrest, hlast, List.reverse_cons, List.append_assoc, List.singleton_append]

/-- What is in snake case and has no capitals stays as it is. -/
theorem snakeCase_eq_self {s : String} (h : IsSnake s.toList)
    (hlower : ∀ c ∈ s.toList, isUpperLetter c = false) : snakeCase s = s := by
  have hplain : ∀ c ∈ s.toList, isUpperLetter c = false ∧ isJoint c = false := fun c hc =>
    ⟨hlower c hc, isJoint_eq_false_iff.2 (h.jointless c hc)⟩
  have hcopied : snakeFrom none [] s.toList = s.toList.reverse := by
    have hall : snakeFrom none [] (s.toList ++ []) =
        snakeFrom (s.toList.getLast?.or none) (s.toList.reverse ++ []) [] := snakeFrom_append hplain
    rwa [List.append_nil, List.append_nil] at hall
  refine String.toList_injective ?_
  rw [toList_snakeCase, hcopied, List.reverse_reverse, collapse_eq_self h.single,
    strip_eq_self h.begins h.ends]

/-- The snake case of ASCII text has no capitals. -/
theorem isUpperLetter_snakeCase {s : String} (hascii : ∀ c ∈ s.toList, c.toNat < 0x80) :
    ∀ c ∈ (snakeCase s).toList, isUpperLetter c = false := by
  refine forall_mem_snakeCase (by decide) ?_ fun c _ hupper _ => hupper
  intro c hc hupper
  have hcapital := isUpper_of_isUpperLetter hupper (hascii c hc)
  apply isUpperLetter_of_isLower
  rw [Char.isLower_toLower_eq_isAlpha, Char.isAlpha, hcapital, Bool.true_or]

/-- **Every text is brought into snake case.**  The passes that replace pairs of underscores come to an end,
all other characters stay but for the separators, and ASCII text has no capitals behind it and is left alone
by a second conversion. -/
theorem snakeCase_spec (s : String) :
    IsSnake (snakeCase s).toList ∧
      (∃ n text, ReplacesIn n (snakeFrom none [] s.toList).reverse text ∧
        snakeCase s = String.ofList (strip text)) ∧
      (snakeCase s).toList.filter (· != '_') =
        foldCase (s.toList.filter fun c => c != '_' && !isJoint c) ∧
      ((∀ c ∈ s.toList, c.toNat < 0x80) →
        (∀ c ∈ (snakeCase s).toList, isUpperLetter c = false) ∧
          snakeCase (snakeCase s) = snakeCase s) := by
  obtain ⟨n, -, hpasses⟩ := exists_replacesIn (snakeFrom none [] s.toList).reverse
  refine ⟨isSnake_snakeCase s, ⟨n, _, hpasses, rfl⟩, filter_snakeCase s, fun hascii => ?_⟩
  have hlower := isUpperLetter_snakeCase hascii
  exact ⟨hlower, snakeCase_eq_self (isSnake_snakeCase s) hlower⟩

theorem snakeCase_spec_messy :
    (∀ c ∈ "-HTTP__server2 Name.".toList, c.toNat < 0x80) ∧
      snakeCase "-HTTP__server2 Name." = "http_server2_name" ∧
      snakeCase (snakeCase "-HTTP__server2 Name.") = snakeCase "-HTTP__server2 Name." := by
  have hascii : ∀ c ∈ "-HTTP__server2 Name.".toList, c.toNat < 0x80 := by simp
  exact ⟨hascii, by decide +kernel, ((snakeCase_spec _).2.2.2 hascii).2⟩

end ApiModel.Naming
