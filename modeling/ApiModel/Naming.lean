import ApiModel.Text.Letter
import ApiModel.Text.Piece

/-!
# Identifier spellings

Conversions between the spellings of one identifier: `snake_case`, `PascalCase` and the lower camel
case of JSON member names.

Principal statement: `collapse_no_double` — collapsing leaves no two neighbouring underscores.
-/

namespace ApiModel.Naming

open ApiModel.Text

/-! ## Snake case -/

/-- Characters that part words and vanish from an identifier. -/
def isJoint (c : Char) : Bool := c == '-' || c == ' ' || c == '.'

/-- A capital between `prev` and `next` begins a word: behind a small letter or a digit, or as the
last capital of an acronym. -/
def beginsWord (prev next : Option Char) : Bool :=
  match prev with
  | none => false
  | some p => isLowerLetter p || p.isDigit || next.any isLowerLetter

/-- Adds an underscore to a reversed text that does not end in one. -/
def underscored (out : List Char) : List Char :=
  if out.head? = some '_' then out else '_' :: out

/-- Reads the characters behind `prev` and adds their snake case to `out`, which is reversed. -/
def snakeFrom (prev : Option Char) (out : List Char) : List Char → List Char
  | [] => out
  | c :: rest =>
    if isUpperLetter c then
      let out := if beginsWord prev rest.head? then underscored out else out
      snakeFrom (some c) (c.toLower :: out) rest
    else if isJoint c then
      snakeFrom (some c) (if out.isEmpty then out else underscored out) rest
    else snakeFrom (some c) (c :: out) rest

/-- Every run of underscores becomes one. -/
def collapse : List Char → List Char
  | [] => []
  | [c] => [c]
  | c :: d :: rest =>
    if c = '_' ∧ d = '_' then collapse (d :: rest) else c :: collapse (d :: rest)

/-- The text without the underscores at either end. -/
def strip (s : List Char) : List Char :=
  ((s.dropWhile (· == '_')).reverse.dropWhile (· == '_')).reverse

/-- `HTTPServer` becomes `http_server`, `secret-version` becomes `secret_version`. -/
def snakeCase (s : String) : String :=
  String.ofList (strip (collapse (snakeFrom none [] s.toList).reverse))

/-! ## Pascal case -/

/-- The piece with its first character in capitals. -/
def capitalised : List Char → List Char
  | [] => []
  | c :: rest => capital c ++ rest

/-- `secret_version` becomes `SecretVersion`; capitals inside a word stay. -/
def pascalCase (s : String) : String :=
  String.ofList ((pieces (fun c => c == '_' || isJoint c) s.toList).flatMap capitalised)

/-! ## JSON member names -/

/-- Reads field name characters; `up` says that an underscore was skipped right before. -/
def camelFrom (up : Bool) : List Char → List Char
  | [] => []
  | c :: rest =>
    if c = '_' then camelFrom true rest
    else (if up then c.toUpper else c) :: camelFrom false rest

/-- The JSON name of a field: `page_token` becomes `pageToken`. -/
def jsonName (s : String) : String := String.ofList (camelFrom false s.toList)

/-! ## Laws -/

theorem head?_collapse (s : List Char) : (collapse s).head? = s.head? := by
  fun_induction collapse s with
  | case1 => rfl
  | case2 => rfl
  | case3 c d rest h ih => rw [ih]; simp [h.1, h.2]
  | case4 => rfl

/-- **Collapsing leaves no two neighbouring underscores.** -/
theorem collapse_no_double (s : List Char) : ¬ ['_', '_'] <:+: collapse s := by
  fun_induction collapse s with
  | case1 => simp
  | case2 c => simp [List.infix_cons_iff]
  | case3 c d rest h ih => exact ih
  | case4 c d rest h ih =>
    rw [List.infix_cons_iff]
    rintro (hp | hp)
    · obtain ⟨t, ht⟩ := hp
      have hc : c = '_' := by simpa using (congrArg List.head? ht).symm
      have hd : (collapse (d :: rest)).head? = some '_' := by
        have := congrArg List.tail ht
        simp only [List.cons_append, List.nil_append, List.tail_cons] at this
        rw [← this]; rfl
      rw [head?_collapse] at hd
      exact h ⟨hc, by simpa using hd⟩
    · exact ih hp

/-- What holds of every character that is written holds of the whole text. -/
theorem forall_mem_snakeFrom {P : Char → Prop} {prev : Option Char} {s out : List Char}
    (hunderscore : P '_') (hcapital : ∀ c ∈ s, isUpperLetter c = true → P c.toLower)
    (hother : ∀ c ∈ s, isUpperLetter c = false → isJoint c = false → P c) (hout : ∀ c ∈ out, P c) :
    ∀ c ∈ snakeFrom prev out s, P c := by
  have hunderscored : ∀ out : List Char, (∀ c ∈ out, P c) → ∀ c ∈ underscored out, P c := by
    intro out hout
    unfold underscored
    split
    · exact hout
    · exact List.forall_mem_cons.2 ⟨hunderscore, hout⟩
  induction s generalizing prev out with
  | nil => exact hout
  | cons c rest ih =>
    obtain ⟨hlower, hcapital⟩ := List.forall_mem_cons.1 hcapital
    obtain ⟨hself, hother⟩ := List.forall_mem_cons.1 hother
    unfold snakeFrom
    split
    · next hupper =>
      refine ih hcapital hother (List.forall_mem_cons.2 ⟨hlower hupper, ?_⟩)
      split
      · exact hunderscored out hout
      · exact hout
    · next hupper =>
      split
      · refine ih hcapital hother ?_
        split
        · exact hout
        · exact hunderscored out hout
      · next hjoint =>
        have hc := hself (by simpa using hupper) (by simpa using hjoint)
        exact ih hcapital hother (List.forall_mem_cons.2 ⟨hc, hout⟩)

theorem mem_of_mem_collapse {s : List Char} {c : Char} (h : c ∈ collapse s) : c ∈ s := by
  fun_induction collapse s with
  | case1 | case2 => exact h
  | case3 d e rest _ ih => exact List.mem_cons_of_mem d (ih h)
  | case4 d e rest _ ih =>
    rcases List.mem_cons.1 h with rfl | h
    · exact List.mem_cons_self ..
    · exact List.mem_cons_of_mem d (ih h)

theorem mem_of_mem_strip {s : List Char} {c : Char} (h : c ∈ strip s) : c ∈ s := by
  have h := (List.dropWhile_suffix _).subset (List.mem_reverse.1 h)
  exact (List.dropWhile_suffix _).subset (List.mem_reverse.1 h)

example : snakeCase "HTTPServer" = "http_server" := by decide +kernel

example : pascalCase "secret_version" = "SecretVersion" := by decide +kernel

example : jsonName "next_page_token" = "nextPageToken" := by decide +kernel

end ApiModel.Naming
