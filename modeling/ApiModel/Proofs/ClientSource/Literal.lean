import ApiModel.Text.Digit
import ApiModel.Text.Piece

/-!
# String literals

What a string literal of the client's language stands for.  Behind its quote it goes up to the next quote that is
not part of an escape; every escape is read as at most one character, and a carriage return is text only as
an escape.

Principal result: `literal?_eq_some_iff` — **a text between quotes stands for itself if and only if** it holds no
quote, no backslash and no carriage return.
-/

namespace ApiModel.Source

/-! ## Escapes -/

/-- What a letter behind a backslash stands for. -/
def escaped? : Char → Option Char
  | 'n' => some '\n'
  | 'r' => some '\r'
  | 't' => some '\t'
  | '0' => some '\x00'
  | '\\' => some '\\'
  | '\'' => some '\''
  | '"' => some '"'
  | _ => none

/-- An ASCII character by its code of two hexadecimal digits. -/
def byteEscape? (cs : List Char) : Option (Char × List Char) := do
  let c ← Text.coded? 2 (cs.take 2)
  if c.toNat < 0x80 then some (c, cs.drop 2) else none

/-- A character by its code of up to six hexadecimal digits between braces; underscores behind the first digit
say nothing. -/
def codeEscape? (cs : List Char) : Option (Char × List Char) := do
  let (before, inside) ← Text.cutFirst '\x7b' cs
  let (written, rest) ← Text.cutFirst '\x7d' inside
  let digits := written.filter (· != '_')
  let c ← Text.coded? digits.length digits
  if before.isEmpty && written.head? != some '_' && decide (digits.length ≤ 6) then some (c, rest) else none

/-- What a backslash at the end of a line skips. -/
def isSkipped (c : Char) : Bool := c == ' ' || c == '\t' || c == '\n' || c == '\r'

/-- What stands behind a backslash: the text that it is read as, and what follows. -/
def escape? : List Char → Option (List Char × List Char)
  | [] => none
  | c :: rest =>
    if c = '\n' ∨ c = '\r' ∧ rest.head? = some '\n' then some ([], rest.dropWhile isSkipped)
    else if c = 'x' then (byteEscape? rest).map fun r => ([r.1], r.2)
    else if c = 'u' then (codeEscape? rest).map fun r => ([r.1], r.2)
    else (escaped? c).map fun d => ([d], rest)

theorem isDigit_of_number? {base n : Nat} {digits : List Char} (h : Text.number? base digits = some n) :
    ∀ c ∈ digits, Text.isDigit base c = true := by
  unfold Text.number? at h
  generalize 0 = start at h
  induction digits generalizing start with
  | nil => exact fun c hc => absurd hc List.not_mem_nil
  | cons d digits ih =>
    rw [List.foldlM_cons] at h
    obtain ⟨value, hvalue, h⟩ := Option.bind_eq_some_iff.1 h
    obtain ⟨digit, hdigit, -⟩ := Option.map_eq_some_iff.1 hvalue
    refine List.forall_mem_cons.2 ⟨?_, ih value h⟩
    unfold Text.isDigit
    rw [hdigit]
    rfl

theorem isDigit_of_coded? {length : Nat} {digits : List Char} {c : Char}
    (h : Text.coded? length digits = some c) : ∀ d ∈ digits, Text.isDigit 16 d = true := by
  obtain ⟨-, -, h⟩ := Option.bind_eq_some_iff.1 h
  obtain ⟨n, hn, -⟩ := Option.bind_eq_some_iff.1 h
  exact isDigit_of_number? hn

theorem byteEscape?_eq_some {cs rest : List Char} {c : Char} (h : byteEscape? cs = some (c, rest)) :
    ∃ w, cs = w ++ rest ∧ '"' ∉ w := by
  obtain ⟨d, hd, h⟩ := Option.bind_eq_some_iff.1 h
  split at h
  · obtain ⟨-, rfl⟩ := Prod.mk.inj (Option.some.inj h)
    refine ⟨cs.take 2, (List.take_append_drop 2 cs).symm, fun hmem => ?_⟩
    exact absurd (isDigit_of_coded? hd '"' hmem) (by decide)
  · cases h

theorem codeEscape?_eq_some {cs rest : List Char} {c : Char} (h : codeEscape? cs = some (c, rest)) :
    ∃ w, cs = w ++ rest ∧ '"' ∉ w := by
  obtain ⟨⟨before, inside⟩, hinside, hbehind⟩ := Option.bind_eq_some_iff.1 h
  obtain ⟨⟨written, more⟩, hwritten, hcode⟩ := Option.bind_eq_some_iff.1 hbehind
  obtain ⟨d, hd, hread⟩ := Option.bind_eq_some_iff.1 hcode
  obtain ⟨rfl, -⟩ := Text.cutFirst_eq_some.1 hinside
  obtain ⟨rfl, -⟩ := Text.cutFirst_eq_some.1 hwritten
  split at hread
  · rename_i hwell
    obtain ⟨-, rfl⟩ := Prod.mk.inj (Option.some.inj hread)
    simp only [Bool.and_eq_true, List.isEmpty_iff] at hwell
    obtain rfl : before = [] := hwell.1.1
    refine ⟨'\x7b' :: (written ++ ['\x7d']), by simp, fun hmem => ?_⟩
    have hquote : '"' ∈ written := by simpa using hmem
    exact absurd (isDigit_of_coded? hd '"' (List.mem_filter.2 ⟨hquote, by decide⟩)) (by decide)
  · cases hread

theorem escaped?_quote {d : Char} (h : escaped? '"' = some d) : d = '"' := (Option.some.inj h).symm

/-- An escape is at least one character and is read as at most one; it holds no quote unless it is one. -/
theorem escape?_eq_some {cs d rest : List Char} (h : escape? cs = some (d, rest)) :
    ∃ w, cs = w ++ rest ∧ w ≠ [] ∧ d.length ≤ 1 ∧ ('"' ∈ w → w = ['"'] ∧ d = ['"']) := by
  cases cs with
  | nil => cases h
  | cons c cs =>
    rw [escape?] at h
    split at h
    · rename_i hend
      obtain ⟨rfl, rfl⟩ := Prod.mk.inj (Option.some.inj h)
      refine ⟨c :: cs.takeWhile isSkipped, by simp, by simp, by simp, fun hmem => ?_⟩
      rcases List.mem_cons.1 hmem with rfl | hmem
      · simp at hend
      · exact absurd (List.all_eq_true.1 List.all_takeWhile '"' hmem) (by decide)
    · split at h
      · rename_i hx
        obtain ⟨⟨e, more⟩, he, heq⟩ := Option.map_eq_some_iff.1 h
        obtain ⟨rfl, rfl⟩ := Prod.mk.inj heq
        obtain ⟨w, rfl, hw⟩ := byteEscape?_eq_some he
        exact ⟨c :: w, rfl, by simp, by simp, fun hmem => absurd hmem (by simp [hx, hw])⟩
      · split at h
        · rename_i hu
          obtain ⟨⟨e, more⟩, he, heq⟩ := Option.map_eq_some_iff.1 h
          obtain ⟨rfl, rfl⟩ := Prod.mk.inj heq
          obtain ⟨w, rfl, hw⟩ := codeEscape?_eq_some he
          exact ⟨c :: w, rfl, by simp, by simp, fun hmem => absurd hmem (by simp [hu, hw])⟩
        · obtain ⟨e, he, heq⟩ := Option.map_eq_some_iff.1 h
          obtain ⟨rfl, rfl⟩ := Prod.mk.inj heq
          refine ⟨[c], rfl, by simp, by simp, fun hmem => ?_⟩
          obtain rfl := List.mem_singleton.1 hmem
          exact ⟨rfl, by rw [escaped?_quote he]⟩

/-! ## Literals -/

/-- What a literal stands for, behind its first quote, and what follows it.  The carriage return of a line end
vanishes, any other one is an error. -/
def literal? : List Char → Option (List Char × List Char)
  | [] => none
  | c :: rest =>
    if c = '"' then some ([], rest)
    else if c = '\\' then
      match _h : escape? rest with
      | some (text, more) => (literal? more).map fun r => (text ++ r.1, r.2)
      | none => none
    else if c = '\r' then if rest.head? = some '\n' then literal? rest else none
    else (literal? rest).map fun r => (c :: r.1, r.2)
termination_by cs => cs.length
decreasing_by
  · obtain ⟨w, rfl, -⟩ := escape?_eq_some _h
    simp only [List.length_append, List.length_cons]
    omega
  all_goals simp

theorem length_literal?_lt {cs v rest : List Char} (h : literal? cs = some (v, rest)) :
    rest.length < cs.length := by
  fun_induction literal? cs generalizing v with
  | case1 | case4 | case6 => cases h
  | case2 =>
    obtain ⟨-, rfl⟩ := Prod.mk.inj (Option.some.inj h)
    exact Nat.lt_succ_self _
  | case3 cs text more hescape _ ih =>
    obtain ⟨⟨u, follows⟩, hu, heq⟩ := Option.map_eq_some_iff.1 h
    obtain ⟨-, rfl⟩ := Prod.mk.inj heq
    obtain ⟨w, rfl, -⟩ := escape?_eq_some hescape
    have hless : follows.length < more.length := ih hu
    simp only [List.length_cons, List.length_append]
    omega
  | case5 cs _ _ _ ih => exact Nat.lt_succ_of_lt (ih h)
  | case7 c cs _ _ _ ih =>
    obtain ⟨⟨u, follows⟩, hu, heq⟩ := Option.map_eq_some_iff.1 h
    obtain ⟨-, rfl⟩ := Prod.mk.inj heq
    exact Nat.lt_succ_of_lt (ih hu)

/-- The text holds nothing that is read as another text between quotes. -/
def IsLiteralText (s : List Char) : Prop := ∀ c ∈ s, c ≠ '"' ∧ c ≠ '\\' ∧ c ≠ '\r'

instance (s : List Char) : Decidable (IsLiteralText s) :=
  List.decidableBAll _ s

variable {s t more rest v : List Char} {c : Char}

theorem literal?_quote : literal? ('"' :: rest) = some ([], rest) := by
  rw [literal?, if_pos rfl]

theorem literal?_itself (hc : c ≠ '"' ∧ c ≠ '\\' ∧ c ≠ '\r') :
    literal? (c :: rest) = (literal? rest).map fun r => (c :: r.1, r.2) := by
  rw [literal?, if_neg hc.1, if_neg hc.2.1, if_neg hc.2.2]

theorem literal?_of_isLiteralText (h : IsLiteralText s) : literal? (s ++ '"' :: rest) = some (s, rest) := by
  induction s with
  | nil => exact literal?_quote
  | cons c s ih =>
    obtain ⟨hc, hs⟩ := List.forall_mem_cons.1 h
    rw [List.cons_append, literal?_itself hc, ih hs]
    rfl

/-- What is ahead of the first quote is either read as it stands, or as a shorter text, or the quote is part of
an escape. -/
inductive ReadsAs (t more v rest : List Char) : Prop
  | itself (text : v = t) (follows : rest = more) (plain : IsLiteralText t)
  | shorter (length : v.length < t.length)
  | beyond (w : List Char) (length : w.length < t.length) (begins : w ++ ['"'] <+: v)

/-- What is read as less than is written makes the text shorter. -/
theorem ReadsAs.less {d : List Char} (hless : d.length + s.length < t.length)
    (h : ReadsAs s more v rest) : ReadsAs t more (d ++ v) rest := by
  obtain ⟨rfl, -, -⟩ | hlength | ⟨w, hlength, hbegins⟩ := h
  · exact .shorter (by rw [List.length_append]; omega)
  · exact .shorter (by rw [List.length_append]; omega)
  · refine .beyond (d ++ w) (by rw [List.length_append]; omega) ?_
    rw [List.append_assoc]
    exact (List.prefix_append_right_inj d).2 hbegins

theorem ReadsAs.itself_cons (hc : c ≠ '"' ∧ c ≠ '\\' ∧ c ≠ '\r') (h : ReadsAs s more v rest) :
    ReadsAs (c :: s) more (c :: v) rest := by
  obtain ⟨rfl, hrest, hplain⟩ | hlength | ⟨w, hlength, hbegins⟩ := h
  · exact .itself rfl hrest (List.forall_mem_cons.2 ⟨hc, hplain⟩)
  · exact .shorter (Nat.succ_lt_succ hlength)
  · exact .beyond (c :: w) (Nat.succ_lt_succ hlength) ((List.prefix_cons_inj c).2 hbegins)

/-- What an escape leaves of a text without quotes, or the escape is the quote behind it. -/
theorem escape?_ahead {d left : List Char} (ht : '"' ∉ t)
    (h : escape? (t ++ '"' :: more) = some (d, left)) :
    (t = [] ∧ d = ['"']) ∨ ∃ s, left = s ++ '"' :: more ∧ s.length < t.length ∧ '"' ∉ s := by
  obtain ⟨w, hw, hne, -, hquote⟩ := escape?_eq_some h
  by_cases hmem : '"' ∈ w
  · obtain ⟨rfl, rfl⟩ := hquote hmem
    cases t with
    | nil => exact .inl ⟨rfl, rfl⟩
    | cons c t =>
      obtain ⟨rfl, -⟩ := List.cons.inj hw
      exact absurd (List.mem_cons_self ..) ht
  · right
    obtain ⟨u, hu, htail⟩ | ⟨u, rfl, rfl⟩ := List.append_eq_append_iff.1 hw
    · cases u with
      | nil =>
        obtain rfl : t = w := by simpa using hu.symm
        refine ⟨[], htail.symm, ?_, List.not_mem_nil⟩
        exact List.length_pos_iff.2 hne
      | cons e u =>
        obtain ⟨rfl, -⟩ := List.cons.inj htail
        exact absurd (by simp [hu]) hmem
    · have := List.length_pos_iff.2 hne
      exact ⟨u, rfl, by simp; omega, fun h => ht (List.mem_append_right w h)⟩

/-- How a literal is read up to the first quote. -/
theorem readsAs_of_literal? (ht : '"' ∉ t) (h : literal? (t ++ '"' :: more) = some (v, rest)) :
    ReadsAs t more v rest := by
  induction hlength : t.length using Nat.strongRecOn generalizing t v with
  | _ length ih =>
    subst hlength
    cases t with
    | nil =>
      rw [List.nil_append, literal?_quote] at h
      obtain ⟨rfl, rfl⟩ := Prod.mk.inj (Option.some.inj h)
      exact .itself rfl rfl (fun c hc => absurd hc List.not_mem_nil)
    | cons c t =>
      obtain ⟨hc, ht⟩ : '"' ≠ c ∧ '"' ∉ t := by simpa using ht
      rw [List.cons_append, literal?, if_neg (Ne.symm hc)] at h
      split at h
      · split at h
        · rename_i d left hescape
          obtain ⟨⟨u, follows⟩, hu, heq⟩ := Option.map_eq_some_iff.1 h
          obtain ⟨rfl, rfl⟩ := Prod.mk.inj heq
          obtain ⟨rfl, rfl⟩ | ⟨s, rfl, hless, hs⟩ := escape?_ahead ht hescape
          · exact .beyond [] (by simp) ⟨u, rfl⟩
          · obtain ⟨-, -, -, hd, -⟩ := escape?_eq_some hescape
            have hread := ih s.length (by simp; omega) hs hu rfl
            exact hread.less (by simp; omega)
        · cases h
      · split at h
        · split at h
          · exact (ih t.length (by simp) ht h rfl).less (d := []) (by simp)
          · cases h
        · rename_i hback hreturn
          obtain ⟨⟨u, follows⟩, hu, heq⟩ := Option.map_eq_some_iff.1 h
          obtain ⟨rfl, rfl⟩ := Prod.mk.inj heq
          exact (ih t.length (by simp) ht hu rfl).itself_cons ⟨Ne.symm hc, hback, hreturn⟩

/-- The part of a text ahead of its first quote, or of the one that is written behind it. -/
theorem exists_ahead (s rest : List Char) :
    ∃ t more, s ++ '"' :: rest = t ++ '"' :: more ∧ '"' ∉ t ∧ t <+: s := by
  by_cases hquote : '"' ∈ s
  · obtain ⟨t, more, rfl, ht⟩ := List.eq_append_cons_of_mem hquote
    exact ⟨t, more ++ '"' :: rest, by simp, ht, List.prefix_append ..⟩
  · exact ⟨s, rest, rfl, hquote, List.prefix_rfl⟩

/-- **A text between quotes stands for itself if and only if** nothing in it is read as something else. -/
theorem literal?_eq_some_iff :
    (∃ follows, literal? (s ++ '"' :: rest) = some (s, follows)) ↔ IsLiteralText s := by
  refine ⟨fun ⟨follows, h⟩ => ?_, fun h => ⟨rest, literal?_of_isLiteralText h⟩⟩
  obtain ⟨t, more, hs, ht, hprefix⟩ := exists_ahead s rest
  rw [hs] at h
  obtain ⟨rfl, -, hplain⟩ | hlength | ⟨w, hlength, hbegins⟩ := readsAs_of_literal? ht h
  · exact hplain
  · exact absurd hprefix.length_le (Nat.not_le.2 hlength)
  · have hahead : w ++ ['"'] <+: t := List.prefix_of_prefix_length_le hbegins hprefix (by simp; omega)
    exact absurd (hahead.subset (by simp)) ht

end ApiModel.Source
