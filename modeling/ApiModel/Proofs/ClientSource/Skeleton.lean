import ApiModel.Proofs.ClientSource.Layout
import ApiModel.Proofs.ClientSource.Name
import ApiModel.Proofs.Target.Host
import Mathlib.Data.List.TakeWhile

/-!
# Reading a client skeleton

What a client skeleton is read as: the values between quotes, the values in comments and the documentation.
Names only leave the code code if they hold no slashes and quotes.

Where a comment ends is all that is asked of it here.  An isolated carriage return inside a line of
documentation is kept, and `Source.pieces?` takes it as any other character; a compiler rejects a documentation
comment that holds one.

Principal results:

* `opens_sourceParts` — such names open no comment and no literal;
* `sound_sourceParts_iff` — where every literal and every comment ends where it is meant to;
* `Api.clientSource_faithful` — **a client skeleton is read as it was written if and only if** the values between
  quotes hold no quote, no backslash and no carriage return and those in comments hold no line feed.
  Documentation ends no comment early, whatever it holds.
-/

namespace ApiModel

open Source ClientSource

/-! ## Values -/

/-- The values of a method that stand between quotes, all of its first binding. -/
def MethodView.literalTexts (m : MethodView) : List String :=
  m.bindings.head?.elim [] fun b =>
    b.verb :: b.path :: ((m.body.filter (!·.isEmpty)).toList ++ b.queryParameters)

def ServiceView.literalTexts (s : ServiceView) : List String :=
  s.defaultHost :: s.methods.flatMap (·.literalTexts)

/-- The values that stand between quotes. -/
def ApiView.literalTexts (v : ApiView) : List String := v.services.flatMap (·.literalTexts)

def MethodView.remarks (m : MethodView) : List String :=
  m.pagination.elim [] (fun p => [p.item, p.itemType, p.nextPageToken, p.pageToken]) ++
    m.operation.elim [] fun o => [o.responseType]

/-- The values that stand in comments, apart from documentation. -/
def ApiView.remarks (v : ApiView) : List String :=
  [if v.title.isEmpty then v.name else v.title, v.package] ++
    v.services.flatMap fun s => s.methods.flatMap (·.remarks)

def ServiceView.documentations (s : ServiceView) : List String :=
  s.documentation :: s.methods.map (·.documentation)

/-- The documentation of services and methods. -/
def ApiView.documentations (v : ApiView) : List String := v.services.flatMap (·.documentations)

def ServiceView.codeNames (s : ServiceView) : List String := s.name :: s.methods.map (·.name)

/-- The names that stand in code, in their own spelling. -/
def ApiView.codeNames (v : ApiView) : List String := v.services.flatMap (·.codeNames)

namespace ClientSource

variable {m : MethodView} {s : ServiceView} {v : ApiView}

/-! ## Code -/

/-- Code goes on with a name in some spelling and with more code. -/
theorem isCode_around {before name behind : String} (hbefore : isCode before.toList = true)
    (hname : IsBare name.toList) (hbehind : isCode behind.toList = true) (hne : behind.toList ≠ []) :
    isCode (before ++ (name ++ behind)).toList = true := by
  rw [String.toList_append, String.toList_append]
  exact isCode_append hbefore (isCode_bare_append hname hbehind hne)

theorem opens_docParts (indent : Nat) (documentation : String) :
    ∀ p ∈ docParts indent documentation, p.Opens := by
  have hblanks : ∀ n, isCode (List.replicate n ' ') = true := by
    intro n
    induction n with
    | zero => rfl
    | succ n ih =>
      rw [List.replicate_succ, isCode, ih]
      rfl
  intro p hp
  unfold docParts at hp
  split at hp
  · cases hp
  · obtain ⟨line, -, hp⟩ := List.mem_flatMap.1 hp
    rcases List.mem_cons.1 hp with rfl | hp
    · trivial
    · obtain rfl := List.mem_singleton.1 hp
      show isCode (String.ofList _).toList = true
      rw [String.toList_ofList]
      exact hblanks indent

theorem opens_listParts (ss : List String) : ∀ p ∈ listParts ss, p.Opens := by
  fun_induction listParts ss with
  | case1 => exact fun p hp => absurd hp List.not_mem_nil
  | case2 s => exact List.forall_mem_singleton.2 trivial
  | case3 s t rest ih =>
    exact List.forall_mem_cons.2 ⟨trivial, List.forall_mem_cons.2 ⟨by decide, ih⟩⟩

theorem opens_bodyParts (body : Option String) : ∀ p ∈ bodyParts body, p.Opens := by
  have hnone : ∀ p ∈ [Part.code ("None" ++ ",")], p.Opens := by decide
  have hsome : (Part.code "Some(").Opens ∧ (Part.code (")" ++ ",")).Opens := by decide
  unfold bodyParts
  split
  · split
    · exact hnone
    · exact List.forall_mem_cons.2 ⟨hsome.1, List.forall_mem_cons.2 ⟨trivial,
        List.forall_mem_singleton.2 hsome.2⟩⟩
  · exact hnone

theorem opens_requestParts (b : BindingView) (body : Option String) :
    ∀ p ∈ requestParts b body, p.Opens := by
  have hconstant : ∀ text ∈ ["\n        Some(RequestTemplate \x7b" ++ "\n            verb: ",
      "," ++ "\n            path: ", "," ++ "\n            body: ", "\n            query_parameters: &[",
      "]," ++ "\n        \x7d)"], (Part.code text).Opens := by
    simp only [List.forall_mem_cons, Part.opens_code_iff, String.toList_append]
    repeat rw [String.toList_ofList]
    decide
  simp only [List.forall_mem_cons] at hconstant
  obtain ⟨hverb, hpath, hbody, hquery, hend, -⟩ := hconstant
  have hhead : ∀ p ∈ [Part.code ("\n        Some(RequestTemplate \x7b" ++ "\n            verb: "),
      .literal b.verb, .code ("," ++ "\n            path: "), .literal b.path,
      .code ("," ++ "\n            body: ")], p.Opens :=
    List.forall_mem_cons.2 ⟨hverb, List.forall_mem_cons.2 ⟨trivial, List.forall_mem_cons.2 ⟨hpath,
      List.forall_mem_cons.2 ⟨trivial, List.forall_mem_singleton.2 hbody⟩⟩⟩⟩
  unfold requestParts
  simp only [List.forall_mem_append]
  exact ⟨⟨⟨⟨hhead, opens_bodyParts body⟩, List.forall_mem_singleton.2 hquery⟩,
    opens_listParts b.queryParameters⟩, List.forall_mem_singleton.2 hend⟩

theorem opens_methodParts (h : IsBare m.name.toList) : ∀ p ∈ methodParts m, p.Opens := by
  have hconstant : ∀ text ∈ ["\n\n    ", "\n        None" ++ "\n    \x7d", "\n    \x7d", "    "],
      (Part.code text).Opens := by
    simp only [List.forall_mem_cons, Part.opens_code_iff, String.toList_append]
    repeat rw [String.toList_ofList]
    decide
  simp only [List.forall_mem_cons] at hconstant
  obtain ⟨hstart, hnone, hend, hindent, -⟩ := hconstant
  have hhead : (Part.code ((if m.deprecated then "#[deprecated]\n    " else "") ++ ("pub fn " ++
      (Naming.snakeCase m.name ++ "(&self) -> Option<RequestTemplate> \x7b")))).Opens := by
    unfold Part.Opens
    rw [← String.append_assoc]
    refine isCode_around ?_ (Naming.isBare_snakeCase h) (by decide) (by decide)
    cases m.deprecated <;> decide
  have hpagination : ∀ p ∈ m.pagination.elim [] paginationParts, p.Opens := by
    cases m.pagination with
    | none => exact fun p hp => absurd hp List.not_mem_nil
    | some _ => simp only [Option.elim_some, paginationParts, List.forall_mem_cons, Part.opens_comment,
        hindent, List.not_mem_nil, false_implies, implies_true, and_true]
  have hoperation : ∀ p ∈ m.operation.elim [] operationParts, p.Opens := by
    cases m.operation with
    | none => exact fun p hp => absurd hp List.not_mem_nil
    | some _ => simp only [Option.elim_some, operationParts, List.forall_mem_cons, Part.opens_comment,
        hindent, List.not_mem_nil, false_implies, implies_true, and_true]
  unfold methodParts
  simp only [List.forall_mem_append]
  refine ⟨⟨⟨⟨⟨List.forall_mem_singleton.2 hstart, opens_docParts 4 m.documentation⟩, hpagination⟩, hoperation⟩,
    List.forall_mem_singleton.2 hhead⟩, ?_⟩
  cases m.bindings.head? with
  | none => exact List.forall_mem_singleton.2 hnone
  | some b =>
    exact List.forall_mem_append.2 ⟨opens_requestParts b m.body, List.forall_mem_singleton.2 hend⟩

theorem opens_constructorParts (host : String) : ∀ p ∈ constructorParts host, p.Opens := by
  simp only [constructorParts, List.forall_mem_cons, Part.opens_literal, Part.opens_code_iff,
    String.toList_append]
  repeat rw [String.toList_ofList]
  decide

theorem opens_serviceParts (h : ∀ name ∈ s.codeNames, IsBare name.toList) :
    ∀ p ∈ serviceParts s, p.Opens := by
  obtain ⟨hname, hmethods⟩ := List.forall_mem_cons.1 h
  have hpascal := Naming.isBare_pascalCase hname
  have hdeclares : (Part.code ((if s.deprecated then "#[deprecated]\n" else "") ++
      ("#[derive(Debug, Clone, PartialEq, Eq)]\n" ++ ("pub struct " ++ (Naming.pascalCase s.name ++
      (" \x7b\n" ++ "    endpoint: String,\n" ++ "\x7d\n\n" ++ "impl " ++
        (Naming.pascalCase s.name ++ " \x7b\n"))))))).Opens := by
    unfold Part.Opens
    rw [← String.append_assoc, ← String.append_assoc]
    have hbefore : isCode ((if s.deprecated then "#[deprecated]\n" else "") ++
        "#[derive(Debug, Clone, PartialEq, Eq)]\n" ++ "pub struct ").toList = true := by
      simp only [String.toList_append]
      cases s.deprecated
      all_goals
        simp only [Bool.false_eq_true, if_false, if_true]
        repeat rw [String.toList_ofList]
        decide
    have hbetween : isCode (" \x7b\n" ++ "    endpoint: String,\n" ++ "\x7d\n\n" ++ "impl ").toList = true := by
      simp only [String.toList_append]
      repeat rw [String.toList_ofList]
      decide
    exact isCode_around hbefore hpascal (isCode_around hbetween hpascal (by decide) (by decide)) (by simp)
  have hdefault : (Part.code ("\n\x7d\n\n" ++ "impl Default for " ++ (Naming.pascalCase s.name ++
      (" \x7b\n" ++ "    fn default() -> Self \x7b\n" ++ "        Self::new()\n" ++ "    \x7d\n" ++
        "\x7d\n")))).Opens := by
    refine isCode_around (by decide) hpascal ?_ (by simp)
    simp only [String.toList_append]
    repeat rw [String.toList_ofList]
    decide
  unfold serviceParts
  simp only [List.forall_mem_append]
  refine ⟨⟨⟨⟨⟨List.forall_mem_singleton.2 (by decide), opens_docParts 0 s.documentation⟩,
    List.forall_mem_singleton.2 hdeclares⟩, opens_constructorParts s.defaultHost⟩, ?_⟩,
    List.forall_mem_singleton.2 hdefault⟩
  refine List.forall_mem_flatMap.2 fun m hm => ?_
  exact opens_methodParts (hmethods m.name (List.mem_map_of_mem hm))

theorem opens_headerParts (title package : String) : ∀ p ∈ headerParts title package, p.Opens := by
  simp only [headerParts, List.forall_mem_cons, Part.opens_comment, Part.opens_code_iff,
    String.toList_append]
  repeat rw [String.toList_ofList]
  decide

/-- **Names without slashes and quotes leave the code code.** -/
theorem opens_sourceParts (h : ∀ name ∈ v.codeNames, IsBare name.toList) :
    ∀ p ∈ v.sourceParts, p.Opens := by
  refine List.forall_mem_append.2 ⟨opens_headerParts _ _, List.forall_mem_flatMap.2 fun s hs => ?_⟩
  exact opens_serviceParts fun name hname => h name (List.mem_flatMap.2 ⟨s, hs, hname⟩)

/-! ## Ends -/

theorem not_mem_append {c : Char} {a b : String} :
    c ∉ (a ++ b).toList ↔ c ∉ a.toList ∧ c ∉ b.toList := by
  rw [String.toList_append, List.mem_append, not_or]

theorem mem_of_mem_trimEnd {c : Char} {cs : List Char} (h : c ∈ Text.trimEnd cs) : c ∈ cs := by
  unfold Text.trimEnd at h
  exact List.mem_reverse.1 ((List.dropWhile_suffix _).subset (List.mem_reverse.1 h))

/-- A line of documentation ends with the line. -/
theorem sound_docParts (indent : Nat) (documentation : String) :
    ∀ p ∈ docParts indent documentation, p.Sound := by
  intro p hp
  unfold docParts at hp
  split at hp
  · cases hp
  · obtain ⟨line, hline, hp⟩ := List.mem_flatMap.1 hp
    rcases List.mem_cons.1 hp with rfl | hp
    · rw [Part.sound_comment_iff]
      unfold docText
      rw [not_mem_append]
      refine ⟨by decide, ?_⟩
      split
      · decide
      · refine not_mem_append.2 ⟨by decide, fun hfeed => ?_⟩
        rw [String.toList_ofList] at hfeed
        exact Text.mem_lines_no_feed hline (mem_of_mem_trimEnd hfeed)
    · obtain rfl := List.mem_singleton.1 hp
      trivial

theorem sound_paginationParts_iff (p : PaginationView) :
    (∀ q ∈ paginationParts p, q.Sound) ↔
      ∀ text ∈ [p.item, p.itemType, p.nextPageToken, p.pageToken], '\n' ∉ text.toList := by
  have hconstant : ∀ text ∈ ["/", "/ Paginated: items are in `", "` (", "),", "/ follow `", "` with `",
      "`."], '\n' ∉ text.toList := by decide
  simp only [List.forall_mem_cons] at hconstant
  simp only [paginationParts, List.forall_mem_cons, Part.sound_code, Part.sound_comment_iff,
    not_mem_append, hconstant, List.not_mem_nil, false_implies, implies_true, not_false_eq_true, true_and,
    and_true, and_assoc]

theorem sound_operationParts_iff (o : OperationView) :
    (∀ q ∈ operationParts o, q.Sound) ↔ '\n' ∉ o.responseType.toList := by
  have hconstant : ∀ text ∈ ["/", "/ Long-running: resolves to `", "`."], '\n' ∉ text.toList := by
    decide
  simp only [List.forall_mem_cons] at hconstant
  simp only [operationParts, List.forall_mem_cons, Part.sound_code, Part.sound_comment_iff,
    not_mem_append, hconstant, List.not_mem_nil, false_implies, implies_true, not_false_eq_true, true_and,
    and_true]

theorem sound_listParts_iff (ss : List String) :
    (∀ p ∈ listParts ss, p.Sound) ↔ ∀ text ∈ ss, IsLiteralText text.toList := by
  fun_induction listParts ss with
  | case1 => simp
  | case2 s => simp [Part.sound_literal_iff]
  | case3 s t rest ih =>
    rw [List.forall_mem_cons, List.forall_mem_cons, List.forall_mem_cons, ih, Part.sound_literal_iff]
    simp only [Part.sound_code, true_and]

theorem sound_bodyParts_iff (body : Option String) :
    (∀ p ∈ bodyParts body, p.Sound) ↔
      ∀ text ∈ (body.filter (!·.isEmpty)).toList, IsLiteralText text.toList := by
  unfold bodyParts
  cases body with
  | none => simp
  | some name =>
    cases hempty : name.isEmpty <;>
      simp only [hempty, Option.filter_some, Bool.not_true, Bool.not_false, Bool.false_eq_true, if_true,
        if_false, Option.toList_some, Option.toList_none, List.forall_mem_cons, Part.sound_code,
        Part.sound_literal_iff, List.not_mem_nil, false_implies, implies_true, true_and, and_true]

theorem sound_requestParts_iff (b : BindingView) (body : Option String) :
    (∀ p ∈ requestParts b body, p.Sound) ↔
      ∀ text ∈ b.verb :: b.path :: ((body.filter (!·.isEmpty)).toList ++ b.queryParameters),
        IsLiteralText text.toList := by
  unfold requestParts
  simp only [List.forall_mem_append, List.forall_mem_cons, Part.sound_code,
    Part.sound_literal_iff, sound_bodyParts_iff, sound_listParts_iff, List.not_mem_nil, false_implies,
    implies_true, true_and, and_true, and_assoc]

theorem sound_methodParts_iff (m : MethodView) :
    (∀ p ∈ methodParts m, p.Sound) ↔
      (∀ text ∈ m.literalTexts, IsLiteralText text.toList) ∧ ∀ text ∈ m.remarks, '\n' ∉ text.toList := by
  have hpagination : (∀ p ∈ m.pagination.elim [] paginationParts, p.Sound) ↔
      ∀ text ∈ m.pagination.elim [] (fun p => [p.item, p.itemType, p.nextPageToken, p.pageToken]),
        '\n' ∉ text.toList := by
    cases m.pagination with
    | none => simp
    | some p => exact sound_paginationParts_iff p
  have hoperation : (∀ p ∈ m.operation.elim [] operationParts, p.Sound) ↔
      ∀ text ∈ m.operation.elim [] (fun o => [o.responseType]), '\n' ∉ text.toList := by
    cases m.operation with
    | none => simp
    | some o =>
      rw [Option.elim_some, Option.elim_some, List.forall_mem_singleton]
      exact sound_operationParts_iff o
  have hbindings : (∀ p ∈ m.bindings.head?.elim [Part.code ("\n        None" ++ "\n    \x7d")]
      (fun b => requestParts b m.body ++ [.code "\n    \x7d"]), p.Sound) ↔
      ∀ text ∈ m.literalTexts, IsLiteralText text.toList := by
    unfold MethodView.literalTexts
    cases m.bindings.head? with
    | none => simp
    | some b =>
      rw [Option.elim_some, List.forall_mem_append, sound_requestParts_iff]
      simp
  unfold methodParts MethodView.remarks
  rw [List.forall_mem_append, List.forall_mem_append, List.forall_mem_append, List.forall_mem_append,
    List.forall_mem_append, hpagination, hoperation, hbindings, List.forall_mem_append]
  simp only [List.forall_mem_singleton, Part.sound_code, true_and, and_true,
    iff_true_intro (sound_docParts 4 m.documentation)]
  exact and_comm

theorem sound_serviceParts_iff (s : ServiceView) :
    (∀ p ∈ serviceParts s, p.Sound) ↔
      (∀ text ∈ s.literalTexts, IsLiteralText text.toList) ∧
        ∀ text ∈ s.methods.flatMap (·.remarks), '\n' ∉ text.toList := by
  have hurl : IsLiteralText "https://\x7b\x7d".toList := by decide
  have hconstructors : (∀ p ∈ constructorParts s.defaultHost, p.Sound) ↔
      IsLiteralText s.defaultHost.toList := by
    simp only [constructorParts, List.forall_mem_cons, Part.sound_code, Part.sound_literal_iff, hurl,
      List.not_mem_nil, false_implies, implies_true, true_and, and_true]
  unfold serviceParts ServiceView.literalTexts
  simp only [List.forall_mem_append, List.forall_mem_singleton, List.forall_mem_cons,
    List.forall_mem_flatMap, Part.sound_code, iff_true_intro (sound_docParts 0 s.documentation), true_and,
    and_true, hconstructors, sound_methodParts_iff, imp_and, forall_and, and_assoc]

theorem sound_headerParts_iff (title package : String) :
    (∀ p ∈ headerParts title package, p.Sound) ↔ ∀ text ∈ [title, package], '\n' ∉ text.toList := by
  have hconstant : ∀ text ∈ ["! ", "!", "! Request descriptions for `", "`.",
      "! Generated by apigen. Do not edit.", "/ HTTP request shape of one RPC",
      "/ Path template, e.g. `/v1/\x7bname=projects/*/secrets/*\x7d`",
      "/ Request field sent as the body, `*` for the whole request"], '\n' ∉ text.toList := by
    simp only [List.forall_mem_cons]
    repeat rw [String.toList_ofList]
    decide
  simp only [List.forall_mem_cons] at hconstant
  simp only [headerParts, List.forall_mem_cons, Part.sound_code, Part.sound_comment_iff,
    not_mem_append, hconstant, List.not_mem_nil, false_implies, implies_true, not_false_eq_true, true_and,
    and_true]

/-- **Every literal and every comment ends where it is meant to if and only if** the values in it let it. -/
theorem sound_sourceParts_iff (v : ApiView) :
    (∀ p ∈ v.sourceParts, p.Sound) ↔
      (∀ text ∈ v.literalTexts, IsLiteralText text.toList) ∧ ∀ text ∈ v.remarks, '\n' ∉ text.toList := by
  unfold ApiView.sourceParts ApiView.literalTexts ApiView.remarks
  rw [List.forall_mem_append, List.forall_mem_append, sound_headerParts_iff]
  simp only [List.forall_mem_flatMap, sound_serviceParts_iff, imp_and, forall_and]
  exact and_left_comm

/-! ## Where values stand -/

theorem mem_requestParts {b : BindingView} {body : Option String} {text : String}
    (h : text ∈ b.verb :: b.path :: ((body.filter (!·.isEmpty)).toList ++ b.queryParameters)) :
    .literal text ∈ requestParts b body := by
  have hlist : ∀ ss : List String, text ∈ ss → .literal text ∈ listParts ss := by
    intro ss hmem
    fun_induction listParts ss with
    | case1 => cases hmem
    | case2 s => simpa using hmem
    | case3 s t rest ih =>
      rcases List.mem_cons.1 hmem with rfl | hmem
      · exact List.mem_cons_self ..
      · exact List.mem_cons_of_mem _ (List.mem_cons_of_mem _ (ih hmem))
  have hbody : text ∈ (body.filter (!·.isEmpty)).toList → .literal text ∈ bodyParts body := by
    intro hmem
    obtain ⟨rfl, hshown⟩ := Option.filter_eq_some_iff.1 (Option.mem_toList.1 hmem)
    simp only [Bool.not_eq_true'] at hshown
    simp [bodyParts, hshown]
  unfold requestParts
  simp only [List.mem_cons, List.mem_append] at h ⊢
  rcases h with rfl | rfl | h | h
  · simp
  · simp
  · simp [hbody h]
  · simp [hlist _ h]

theorem serviceParts_subset (hs : s ∈ v.services) : serviceParts s ⊆ v.sourceParts := fun _ hp =>
  List.mem_append_right _ (List.mem_flatMap.2 ⟨s, hs, hp⟩)

theorem docParts_subset_serviceParts : docParts 0 s.documentation ⊆ serviceParts s := fun _ hp =>
  List.mem_append_left _ (List.mem_append_left _ (List.mem_append_left _ (List.mem_append_left _
    (List.mem_append_right _ hp))))

theorem constructorParts_subset : constructorParts s.defaultHost ⊆ serviceParts s := fun _ hp =>
  List.mem_append_left _ (List.mem_append_left _ (List.mem_append_right _ hp))

theorem methodParts_subset (hm : m ∈ s.methods) : methodParts m ⊆ serviceParts s := fun _ hp =>
  List.mem_append_left _ (List.mem_append_right _ (List.mem_flatMap.2 ⟨m, hm, hp⟩))

theorem docParts_subset_methodParts : docParts 4 m.documentation ⊆ methodParts m := fun _ hp =>
  List.mem_append_left _ (List.mem_append_left _ (List.mem_append_left _ (List.mem_append_left _
    (List.mem_append_right _ hp))))

/-- The values between quotes are literals of the skeleton. -/
theorem mem_sourceParts_of_literal {text : String} (h : text ∈ v.literalTexts) :
    .literal text ∈ v.sourceParts := by
  obtain ⟨s, hs, htext⟩ := List.mem_flatMap.1 h
  refine serviceParts_subset hs ?_
  rcases List.mem_cons.1 htext with rfl | htext
  · exact constructorParts_subset (List.mem_cons_of_mem _ (List.mem_cons_self ..))
  · obtain ⟨m, hm, htext⟩ := List.mem_flatMap.1 htext
    have hmethod : .literal text ∈ methodParts m := by
      unfold MethodView.literalTexts at htext
      unfold methodParts
      revert htext
      cases m.bindings.head? with
      | none => exact fun htext => absurd htext List.not_mem_nil
      | some b =>
        intro htext
        exact List.mem_append_right _ (List.mem_append_left _ (mem_requestParts htext))
    exact methodParts_subset hm hmethod

theorem mem_docParts (indent : Nat) {documentation : String} {line : List Char}
    (h : line ∈ Text.lines (Text.trimEnd documentation.toList)) :
    .comment (docText line) ∈ docParts indent documentation := by
  unfold docParts
  split
  · rename_i hblank
    have hnone : Text.trimEnd documentation.toList = [] := by
      unfold Text.trimEnd
      rw [List.reverse_eq_nil_iff, List.dropWhile_eq_nil_iff]
      exact fun c hc => List.all_eq_true.1 hblank c (List.mem_reverse.1 hc)
    rw [hnone] at h
    cases h
  · exact List.mem_flatMap.2 ⟨line, h, List.mem_cons_self ..⟩

/-- The lines of documentation are comments of the skeleton. -/
theorem mem_sourceParts_of_documentation {documentation : String} (h : documentation ∈ v.documentations)
    {line : List Char} (hline : line ∈ Text.lines (Text.trimEnd documentation.toList)) :
    .comment (docText line) ∈ v.sourceParts := by
  obtain ⟨s, hs, htext⟩ := List.mem_flatMap.1 h
  refine serviceParts_subset hs ?_
  rcases List.mem_cons.1 htext with rfl | htext
  · exact docParts_subset_serviceParts (mem_docParts 0 hline)
  · obtain ⟨m, hm, rfl⟩ := List.mem_map.1 htext
    exact methodParts_subset hm (docParts_subset_methodParts (mem_docParts 4 hline))

end ClientSource

/-- A client skeleton is read as its parts if and only if the values in them let it. -/
theorem pieces?_clientSource_iff {v : ApiView} (h : ∀ name ∈ v.codeNames, IsBare name.toList) :
    pieces? v.clientSource.toList = some (v.sourceParts.flatMap (·.pieces)) ↔
      (∀ text ∈ v.literalTexts, IsLiteralText text.toList) ∧ ∀ text ∈ v.remarks, '\n' ∉ text.toList := by
  rw [clientSource_eq_written, ← sound_sourceParts_iff]
  exact pieces?_written_iff (opens_sourceParts h)

namespace Api

/-- **A client skeleton is read as it was written if and only if** no value between quotes holds a quote, a
backslash or a carriage return, and no value in a comment holds a line feed.  Each value between quotes is
a literal, and each line of documentation is a comment. -/
theorem clientSource_faithful (api : Api) (h : ∀ name ∈ api.view.codeNames, IsBare name.toList) :
    (pieces? api.view.clientSource.toList = some (api.view.sourceParts.flatMap (·.pieces)) ↔
        (∀ text ∈ api.view.literalTexts, IsLiteralText text.toList) ∧
          ∀ text ∈ api.view.remarks, '\n' ∉ text.toList) ∧
      (∀ text ∈ api.view.literalTexts, .literal text ∈ api.view.sourceParts) ∧
      ∀ documentation ∈ api.view.documentations,
        ∀ line ∈ Text.lines (Text.trimEnd documentation.toList),
          .comment (docText line) ∈ api.view.sourceParts :=
  ⟨pieces?_clientSource_iff h, fun _ => mem_sourceParts_of_literal,
    fun _ hdocumentation _ => mem_sourceParts_of_documentation hdocumentation⟩

theorem clientSource_faithful_library :
    ∃ api, createModel plainConfig (.ok Target.library : Except Unit Api) = .ok api ∧
      (∀ name ∈ api.view.codeNames, IsBare name.toList) ∧
      api.view.literalTexts = ["", "PATCH", "/v1/\x7bbook.name=shelves/*/books/*\x7d"] ∧
      api.view.remarks = ["library", "v1"] ∧
      pieces? api.view.clientSource.toList = some (api.view.sourceParts.flatMap (·.pieces)) := by
  have hcodeNames : (builtLibrary none).view.codeNames = ["Library", "UpdateBook"] := by rfl
  have hliterals : (builtLibrary none).view.literalTexts =
      ["", "PATCH", "/v1/\x7bbook.name=shelves/*/books/*\x7d"] := by rfl
  have hremarks : (builtLibrary none).view.remarks = ["library", "v1"] := by rfl
  have hnames : ∀ name ∈ (builtLibrary none).view.codeNames, IsBare name.toList := by
    rw [hcodeNames]
    decide
  obtain ⟨hread, -, -⟩ := (builtLibrary none).clientSource_faithful hnames
  refine ⟨_, createModel_library none, hnames, hliterals, hremarks, hread.2 ⟨?_, ?_⟩⟩
  · rw [hliterals]
    decide
  · rw [hremarks]
    decide

/-- The path of a method, with a quote. -/
def quotedPath : PathTemplate := { segments := [.literal "v1", .literal "\"now\""] }

/-- A model with a method that is bound to it. -/
def clock : Api :=
  let service := Service.new "Clock" "v1"
  (({ name := "clock", package := "v1" } : Api).addMessage (.new "Time" "v1" none)).addService service
    [{ Method.new service "Read" ".v1.Time" ".v1.Time" with
      pathInfo.bindings := [{ verb := "GET", path := quotedPath }] }]

/-- The quotes of a path end its literal. -/
theorem not_clientSource_faithful_clock :
    PathTemplate.parse "/v1/\"now\"" = .ok quotedPath ∧
      ∃ api, createModel plainConfig (.ok clock : Except Unit Api) = .ok api ∧
        "/v1/\"now\"" ∈ api.view.literalTexts ∧
        pieces? api.view.clientSource.toList ≠ some (api.view.sourceParts.flatMap (·.pieces)) := by
  refine ⟨by decide, ?_⟩
  obtain ⟨api, hcreate, hcodeNames, hliterals⟩ :
      ∃ api, createModel plainConfig (.ok clock : Except Unit Api) = .ok api ∧
        api.view.codeNames = ["Clock", "Read"] ∧
        api.view.literalTexts = ["", "GET", "/v1/\"now\""] := ⟨_, rfl, rfl, rfl⟩
  have hnames : ∀ name ∈ api.view.codeNames, IsBare name.toList := by
    rw [hcodeNames]
    decide
  have hmem : "/v1/\"now\"" ∈ api.view.literalTexts := by simp [hliterals]
  refine ⟨api, hcreate, hmem, fun hread => ?_⟩
  have hplain := ((pieces?_clientSource_iff hnames).1 hread).1 _ hmem
  revert hplain
  decide

end Api

end ApiModel
