import ApiModel.Proofs.Yaml.Block
import ApiModel.Proofs.Yaml.Row
import Mathlib.Data.List.TakeWhile

/-!
# States of the lexer

What the lexer has found at the start of a line inside open blocks, and what single tokens change.

Principal results:

* `At.close`, `At.openBlock` — blocks are closed and opened as a line says it;
* `Reads.skip`, `Reads.token` — reading a text token by token.
-/

namespace ApiModel.Yaml

namespace Lexer

/-- The columns of the blocks inside a document, as the lexer keeps them. -/
def columns (open_ : List Nat) : List Int := open_.map Int.ofNat ++ [-1]

/-- Between two tokens: the tokens found so far, the columns of the open blocks, and a line that the
places before it where a key might have begun do not reach. -/
structure At (l : Lexer) (ts : List Token) (open_ : List Nat) (line : Nat) : Prop where
  tokens : l.tokens = ts
  indents : l.indent :: l.outerIndents = columns open_
  candidate : l.candidate = none
  flow : l.outerCandidates = []
  before : ∀ a b, .candidate a b ∈ l.entries → a < line

variable {l : Lexer} {ts us : List Token} {open_ : List Nat} {line column : Nat} {c : Cell}
  {cells rest : List Cell}

theorem at_start (line : Nat) : At {} [] [] line where
  tokens := rfl
  indents := rfl
  candidate := rfl
  flow := rfl
  before := by simp

/-! ## Tokens -/

theorem tokens_emit (t : Token) : (l.emit t).tokens = l.tokens ++ [t] := by
  simp [tokens, emit]

namespace At

theorem inFlow (h : At l ts open_ line) : l.inFlow = false := by
  simp [Lexer.inFlow, h.flow]

theorem mono {other : Nat} (h : At l ts open_ line) (hle : line ≤ other) : At l ts open_ other :=
  { h with before := fun a b hmem => Nat.lt_of_lt_of_le (h.before a b hmem) hle }

theorem allow (h : At l ts open_ line) (keyAllowed : Bool) :
    At { l with keyAllowed } ts open_ line where
  tokens := h.tokens
  indents := h.indents
  candidate := h.candidate
  flow := h.flow
  before := h.before

theorem emit (h : At l ts open_ line) (t : Token) : At (l.emit t) (ts ++ [t]) open_ line where
  tokens := by rw [tokens_emit, h.tokens]
  indents := h.indents
  candidate := h.candidate
  flow := h.flow
  before := fun a b hmem => h.before a b (by simpa [Lexer.emit] using hmem)

theorem dropCandidate (h : At l ts open_ line) : l.dropCandidate = some l := by
  have hcandidate := h.candidate
  obtain ⟨entries, indent, outerIndents, candidate, outerCandidates, keyAllowed⟩ := l
  obtain rfl : candidate = none := hcandidate
  rfl

theorem expire (h : At l ts open_ line) (c : Cell) : l.expire c = some l := by
  have hcandidate := h.candidate
  have hflow := h.flow
  obtain ⟨entries, indent, outerIndents, candidate, outerCandidates, keyAllowed⟩ := l
  obtain rfl : candidate = none := hcandidate
  obtain rfl : outerCandidates = [] := hflow
  rfl

end At

/-! ## Blocks -/

theorem columns_cons (n : Nat) (open_ : List Nat) : columns (n :: open_) = (n : Int) :: columns open_ :=
  rfl

theorem exists_columns (open_ : List Nat) : ∃ i o, columns open_ = i :: o := by
  cases open_ <;> exact ⟨_, _, rfl⟩

theorem closeFrom_columns (column : Int) (entries : List Entry) {indent : Int}
    {outer : List Int} (h : indent :: outer = columns open_) :
    ∃ inner more, closeFrom column indent entries outer =
        (inner, (open_.takeWhile fun n : Nat => column < (n : Int)).map (fun _ => .token .blockEnd) ++ entries,
          more) ∧
      inner :: more = columns (open_.dropWhile fun n : Nat => column < (n : Int)) := by
  induction open_ generalizing indent outer entries with
  | nil =>
    obtain ⟨rfl, rfl⟩ := List.cons.inj h
    exact ⟨-1, [], rfl, rfl⟩
  | cons n open_ ih =>
    obtain ⟨i, o, ho⟩ := exists_columns open_
    rw [columns_cons, ho] at h
    obtain ⟨rfl, rfl⟩ := List.cons.inj h
    by_cases hn : column < (n : Int)
    · obtain ⟨inner, more, hclose, hcolumns⟩ := ih (.token .blockEnd :: entries) ho.symm
      refine ⟨inner, more, ?_, ?_⟩
      · rw [closeFrom, if_pos hn, hclose, List.takeWhile_cons_of_pos (by simpa using hn)]
        simp only [List.map_const', List.length_cons, List.replicate_succ', List.append_assoc,
          List.cons_append, List.nil_append]
      · rwa [List.dropWhile_cons_of_pos (by simpa using hn)]
    · refine ⟨n, i :: o, ?_, ?_⟩
      · rw [List.takeWhile_cons_of_neg (by simp [hn]), closeFrom, if_neg hn]
        rfl
      · rw [List.dropWhile_cons_of_neg (by simp [hn]), columns_cons, ho]

theorem keyAllowed_close (column : Int) : (l.close column).keyAllowed = l.keyAllowed := by
  unfold close
  split <;> rfl

theorem close_of_le {column : Int} (h : l.indent ≤ column) : l.close column = l := by
  have hkeep : closeFrom column l.indent l.entries l.outerIndents =
      (l.indent, l.entries, l.outerIndents) := by
    cases l.outerIndents with
    | nil => rfl
    | cons outer more => rw [closeFrom, if_neg (Int.not_lt.2 h)]
  unfold close
  rw [hkeep]
  split <;> rfl

theorem head_closed : ∀ n ∈ (closed open_ column).head?, n ≤ column := by
  intro n hn
  have hhead := List.head?_dropWhile_not (column < ·) open_
  unfold closed at hn
  rw [hn] at hhead
  simpa using hhead

namespace At

/-- The innermost block is indented as far as its column says. -/
theorem indent_le (h : At l ts open_ line) (hle : ∀ n ∈ open_.head?, n ≤ column) :
    l.indent ≤ column := by
  have hindents := h.indents
  cases open_ with
  | nil =>
    obtain ⟨hindent, -⟩ := List.cons.inj hindents
    omega
  | cons n open_ =>
    obtain ⟨hindent, -⟩ := List.cons.inj hindents
    have hn := hle n rfl
    simp at hindent
    omega

/-- The blocks that are indented further than a column end. -/
theorem closeInt (h : At l ts open_ line) (column : Int) :
    At (l.close column) (ts ++ (open_.takeWhile fun n : Nat => column < (n : Int)).map fun _ => .blockEnd)
      (open_.dropWhile fun n : Nat => column < (n : Int)) line := by
  obtain ⟨inner, more, hclose, hcolumns⟩ := closeFrom_columns column l.entries h.indents
  unfold close
  rw [if_neg (by simp [h.inFlow]), hclose]
  exact {
    tokens := by
      rw [← h.tokens]
      simp [Lexer.tokens, List.map_const']
    indents := hcolumns
    candidate := h.candidate
    flow := h.flow
    before := fun a b hmem => h.before a b (by simpa using hmem) }

theorem close (h : At l ts open_ line) (column : Nat) :
    At (l.close column) (ts ++ closing open_ column) (closed open_ column) line := by
  have hclose := h.closeInt column
  simpa only [closing, closed, Int.ofNat_lt] using hclose

/-- All blocks end. -/
theorem closeAll (h : At l ts open_ line) :
    At (l.close (-1)) (ts ++ open_.map fun _ => .blockEnd) [] line := by
  have hclose := h.closeInt (-1)
  have hall : ∀ n ∈ open_, decide ((-1 : Int) < (n : Int)) = true := fun n _ => by simp; omega
  rwa [List.takeWhile_eq_self_iff.2 hall, List.dropWhile_eq_nil_iff.2 hall] at hclose

theorem opensAt (h : At l ts open_ line) (column : Nat) : l.opensAt column = opens open_ column := by
  have hindents := h.indents
  unfold Lexer.opensAt opens
  rw [h.inFlow]
  cases open_ with
  | nil =>
    obtain ⟨hindent, -⟩ := List.cons.inj hindents
    simp [hindent]
    omega
  | cons n open_ =>
    obtain ⟨hindent, -⟩ := List.cons.inj hindents
    simp [hindent]

theorem push (h : At l ts open_ line) (column : Nat) : At (l.push column) ts (column :: open_) line where
  tokens := h.tokens
  indents := by rw [columns_cons, ← h.indents]; rfl
  candidate := h.candidate
  flow := h.flow
  before := h.before

/-- A block begins where one does. -/
theorem openBlock (h : At l ts open_ line) (column : Nat) (start : Token) :
    At (l.openBlock column start) (ts ++ opening open_ column start) (opened open_ column) line := by
  unfold Lexer.openBlock opening opened
  rw [h.opensAt]
  split
  · exact (h.push column).emit start
  · simpa using h

end At

/-! ## Keys -/

theorem resolve_of_before {k : Candidate} (found : List Entry) {entries : List Entry}
    (h : ∀ a b, .candidate a b ∈ entries → a < k.line) : resolve k found entries = entries := by
  induction entries with
  | nil => rfl
  | cons e entries ih =>
    have hmore := ih fun a b hmem => h a b (List.mem_cons_of_mem e hmem)
    unfold resolve at hmore ⊢
    rw [List.flatMap_cons, hmore]
    cases e with
    | token t => rfl
    | candidate a b =>
      have ha : ¬ (a = k.line ∧ b = k.column) := by
        have := h a b (List.mem_cons_self ..)
        omega
      simp only [ha, if_false]
      rfl

/-- The place of a candidate becomes what was found there. -/
theorem resolve_candidate (found : List Entry) {entries : List Entry} (t : Token) (k : Candidate)
    (h : ∀ a b, .candidate a b ∈ entries → a < k.line) :
    resolve k found (.token t :: .candidate k.line k.column :: entries) =
      .token t :: (found ++ entries) := by
  have hrest := resolve_of_before found h
  unfold resolve at hrest ⊢
  rw [List.flatMap_cons, List.flatMap_cons, hrest]
  simp

/-- The lexer behind a text that may be a key. -/
def behindKey (l : Lexer) (c : Cell) (key : String) : Lexer :=
  { l with
    candidate := some ⟨c.line, c.column, !l.inFlow && l.indent == (c.column : Int)⟩
    entries := .token (.scalar true key) :: .candidate c.line c.column :: l.entries
    keyAllowed := false }

theorem expire_behindKey (l : Lexer) (hflow : l.outerCandidates = []) (c : Cell) (key : String) {d : Cell}
    (h : Candidate.isStale ⟨c.line, c.column, !l.inFlow && l.indent == (c.column : Int)⟩ d = false) :
    (l.behindKey c key).expire d = some (l.behindKey c key) := by
  unfold expire behindKey
  simp [h, hflow]

/-- Where a key may begin, a text may be one. -/
theorem At.node (h : At l ts open_ line) (hallowed : l.keyAllowed = true) (c : Cell) (key : String) :
    l.node c (.scalar true key) = some (l.behindKey c key) := by
  unfold Lexer.node noteCandidate
  rw [if_pos hallowed, h.dropCandidate]
  rfl

/-- **A colon makes the text in front of it a key**, which may be the first one of a mapping. -/
theorem At.value (h : At l ts open_ line) {c : Cell} (hline : line ≤ c.line) (key : String) (d : Cell) :
    ∃ l', (l.behindKey c key).value d = some l' ∧ l'.keyAllowed = false ∧
      At l' (ts ++ (opening open_ c.column .blockMappingStart ++ [.key, .scalar true key, .value]))
        (opened open_ c.column) line := by
  have hopens : (l.behindKey c key).opensAt c.column = opens open_ c.column := h.opensAt c.column
  have hresolve := fun found => resolve_candidate found (.scalar true key)
    ⟨c.line, c.column, !l.inFlow && l.indent == (c.column : Int)⟩
    fun a b hmem => Nat.lt_of_lt_of_le (h.before a b hmem) hline
  refine ⟨_, rfl, rfl, ?_⟩
  unfold opening opened
  rw [hopens]
  cases opens open_ c.column with
  | true =>
    exact {
      tokens := by
        rw [tokens_emit, ← h.tokens]
        simp [Lexer.tokens, behindKey, Lexer.push, hresolve]
      indents := congrArg ((c.column : Int) :: ·) h.indents
      candidate := rfl
      flow := h.flow
      before := fun a b hmem => h.before a b <| by
        simpa [Lexer.emit, behindKey, Lexer.push, hresolve] using hmem }
  | false =>
    exact {
      tokens := by
        rw [tokens_emit, ← h.tokens]
        simp [Lexer.tokens, behindKey, hresolve]
      indents := h.indents
      candidate := rfl
      flow := h.flow
      before := fun a b hmem => h.before a b <| by
        simpa [Lexer.emit, behindKey, hresolve] using hmem }

/-! ## Runs -/

/-- The lexer finds tokens in cells. -/
def Reads (l : Lexer) (cells : List Cell) (ts : List Token) : Prop :=
  ∀ rounds, cells.length < rounds → run rounds l cells = some ts

namespace Reads

theorem skip {keyAllowed : Bool} (hskip : Lexer.skip l.inFlow l.keyAllowed false cells = (keyAllowed, rest))
    (hbegins : Begins rest) (hlength : rest.length ≤ cells.length)
    (h : Reads { l with keyAllowed } rest ts) : Reads l cells ts := by
  intro rounds hrounds
  have hrun := h rounds (Nat.lt_of_le_of_lt hlength hrounds)
  cases rounds with
  | zero => omega
  | succ rounds =>
    rw [run, skip_of_begins hbegins] at hrun
    rw [run, hskip]
    exact hrun

theorem token {l₁ l₂ : Lexer} {cells : List Cell} (hbegins : Begins (c :: rest))
    (hexpire : l.expire c = some l₁) (htoken : (l₁.close c.column).token c rest = some (l₂, cells))
    (hlength : cells.length ≤ rest.length) (h : Reads l₂ cells ts) : Reads l (c :: rest) ts := by
  intro rounds hrounds
  cases rounds with
  | zero => omega
  | succ rounds =>
    have hrun := h rounds (by simp at hrounds; omega)
    rw [run, skip_of_begins hbegins]
    simp only [hexpire, htoken, Option.bind_eq_bind, Option.bind_some]
    exact hrun

theorem done (h : At l ts open_ line) : Reads l [] (ts ++ open_.map fun _ => .blockEnd) := by
  intro rounds hrounds
  cases rounds with
  | zero => omega
  | succ rounds =>
    have hclose := h.closeAll
    show (do return (← (({ l with keyAllowed := l.keyAllowed } : Lexer).close (-1)).dropCandidate).tokens) = _
    rw [hclose.dropCandidate]
    exact congrArg some hclose.tokens

end Reads

end Lexer

end ApiModel.Yaml
