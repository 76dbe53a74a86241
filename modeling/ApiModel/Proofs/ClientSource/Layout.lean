import ApiModel.ClientSource
import ApiModel.Proofs.ClientSource.Piece

/-!
# The parts of a client skeleton

A client skeleton is written from code, comments and literals.

Principal result: `clientSource_eq_written` — **the text of a skeleton is that of its parts**.
-/

namespace ApiModel

open Source

namespace ClientSource

/-- What stands between the parts of a text. -/
def written (parts : List Part) : String := String.join (parts.map (·.written))

variable {parts ps qs : List Part} {p : Part}

@[simp]
theorem written_nil : written [] = "" := rfl

@[simp]
theorem written_cons : written (p :: ps) = p.written ++ written ps := String.join_cons

@[simp]
theorem written_append : written (ps ++ qs) = written ps ++ written qs := by
  unfold written
  rw [List.map_append, String.join_append]

theorem written_flatMap {α : Type} (f : α → List Part) (as : List α) :
    written (as.flatMap f) = String.join (as.map fun a => written (f a)) := by
  induction as with
  | nil => rfl
  | cons a as ih => rw [List.flatMap_cons, written_append, ih, List.map_cons, String.join_cons]

/-! ## Comments -/

/-- A line of documentation behind two slashes. -/
def docText (line : List Char) : String :=
  "/" ++ if Text.isBlankText line then "" else " " ++ String.ofList (Text.trimEnd line)

/-- Documentation, each line a comment; the next line stands behind `indent` spaces. -/
def docParts (indent : Nat) (documentation : String) : List Part :=
  if Text.isBlankText documentation.toList then []
  else (Text.lines (Text.trimEnd documentation.toList)).flatMap fun line =>
    [.comment (docText line), .code (String.ofList (List.replicate indent ' '))]

def paginationParts (p : PaginationView) : List Part :=
  [.comment "/", .code "    ",
    .comment ("/ Paginated: items are in `" ++ p.item ++ "` (" ++ p.itemType ++ "),"), .code "    ",
    .comment ("/ follow `" ++ p.nextPageToken ++ "` with `" ++ p.pageToken ++ "`."), .code "    "]

def operationParts (o : OperationView) : List Part :=
  [.comment "/", .code "    ", .comment ("/ Long-running: resolves to `" ++ o.responseType ++ "`."),
    .code "    "]

/-! ## Methods -/

def bodyParts (body : Option String) : List Part :=
  match body with
  | some name =>
    if name.isEmpty then [.code ("None" ++ ",")] else [.code "Some(", .literal name, .code (")" ++ ",")]
  | none => [.code ("None" ++ ",")]

def listParts : List String → List Part
  | [] => []
  | [s] => [.literal s]
  | s :: t :: rest => .literal s :: .code ", " :: listParts (t :: rest)

def requestParts (b : BindingView) (body : Option String) : List Part :=
  [.code ("\n        Some(RequestTemplate \x7b" ++ "\n            verb: "), .literal b.verb,
    .code ("," ++ "\n            path: "), .literal b.path, .code ("," ++ "\n            body: ")] ++
  bodyParts body ++ [.code "\n            query_parameters: &["] ++ listParts b.queryParameters ++
  [.code ("]," ++ "\n        \x7d)")]

def methodParts (m : MethodView) : List Part :=
  [.code "\n\n    "] ++ docParts 4 m.documentation ++ m.pagination.elim [] paginationParts ++
    m.operation.elim [] operationParts ++
    [.code ((if m.deprecated then "#[deprecated]\n    " else "") ++ ("pub fn " ++
      (Naming.snakeCase m.name ++ "(&self) -> Option<RequestTemplate> \x7b")))] ++
    m.bindings.head?.elim [.code ("\n        None" ++ "\n    \x7d")]
      fun b => requestParts b m.body ++ [.code "\n    \x7d"]

/-! ## Services -/

def constructorParts (host : String) : List Part :=
  [.code "    pub const DEFAULT_HOST: &'static str = ", .literal host,
    .code (";\n\n" ++ "    pub fn new() -> Self \x7b\n" ++ "        Self::with_endpoint(format!("),
    .literal "https://\x7b\x7d",
    .code (", Self::DEFAULT_HOST))\n" ++ "    \x7d\n\n" ++
      "    pub fn with_endpoint(endpoint: impl Into<String>) -> Self \x7b\n" ++
      "        Self \x7b\n" ++
      "            endpoint: endpoint.into(),\n" ++
      "        \x7d\n" ++
      "    \x7d\n\n" ++
      "    pub fn endpoint(&self) -> &str \x7b\n" ++
      "        &self.endpoint\n" ++
      "    \x7d")]

def serviceParts (s : ServiceView) : List Part :=
  let name := Naming.pascalCase s.name
  [.code "\n"] ++ docParts 0 s.documentation ++
    [.code ((if s.deprecated then "#[deprecated]\n" else "") ++
      ("#[derive(Debug, Clone, PartialEq, Eq)]\n" ++ ("pub struct " ++ (name ++
      (" \x7b\n" ++ "    endpoint: String,\n" ++ "\x7d\n\n" ++ "impl " ++ (name ++ " \x7b\n"))))))] ++
    constructorParts s.defaultHost ++ s.methods.flatMap methodParts ++
    [.code ("\n\x7d\n\n" ++ "impl Default for " ++ (name ++ (" \x7b\n" ++
      "    fn default() -> Self \x7b\n" ++
      "        Self::new()\n" ++
      "    \x7d\n" ++
      "\x7d\n")))]

def headerParts (title package : String) : List Part :=
  [.comment ("! " ++ title), .comment "!", .comment ("! Request descriptions for `" ++ package ++ "`."),
    .comment "! Generated by apigen. Do not edit.", .code "\n", .comment "/ HTTP request shape of one RPC",
    .code ("#[derive(Debug, Clone, Copy, PartialEq, Eq)]\n" ++ "pub struct RequestTemplate \x7b\n" ++
      "    pub verb: &'static str,\n" ++ "    "),
    .comment "/ Path template, e.g. `/v1/\x7bname=projects/*/secrets/*\x7d`",
    .code ("    pub path: &'static str,\n" ++ "    "),
    .comment "/ Request field sent as the body, `*` for the whole request",
    .code ("    pub body: Option<&'static str>,\n" ++
      "    pub query_parameters: &'static [&'static str],\n" ++ "\x7d\n")]

end ClientSource

open ClientSource

/-- What a client skeleton is written from. -/
def ApiView.sourceParts (v : ApiView) : List Part :=
  headerParts (if v.title.isEmpty then v.name else v.title) v.package ++ v.services.flatMap serviceParts

namespace ClientSource

/-! ## Texts -/

theorem intercalate_append {α : Type} {feed : List α} {xs : List (List α)} (h : xs ≠ []) :
    List.intercalate feed xs ++ feed = xs.flatMap (· ++ feed) := by
  induction xs with
  | nil => exact absurd rfl h
  | cons x xs ih =>
    cases xs with
    | nil => simp
    | cons y xs =>
      rw [List.intercalate_cons_cons, List.append_assoc, ih (List.cons_ne_nil y xs)]
      rfl

theorem lines_ne_nil {cs : List Char} (h : cs ≠ []) : Text.lines cs ≠ [] := by
  have hfrom : ∀ cs cur : List Char, cs ≠ [] ∨ cur ≠ [] → Text.linesFrom cur cs ≠ [] := by
    intro cs
    induction cs with
    | nil => simp [Text.linesFrom]
    | cons c cs ih =>
      intro cur _
      unfold Text.linesFrom
      split
      · simp
      · exact ih _ (.inr (by simp))
  exact hfrom cs [] (.inl h)

theorem trimEnd_ne_nil {cs : List Char} (h : Text.isBlankText cs = false) : Text.trimEnd cs ≠ [] := by
  intro hnil
  unfold Text.trimEnd at hnil
  have hall := List.takeWhile_append_dropWhile (p := Text.isBlank) (l := cs.reverse)
  rw [List.reverse_eq_nil_iff.1 hnil, List.append_nil] at hall
  rw [Text.isBlankText, List.all_eq_false] at h
  obtain ⟨c, hc, hink⟩ := h
  rw [← List.mem_reverse, ← hall] at hc
  exact hink (List.all_eq_true.1 List.all_takeWhile c hc)

theorem toList_docText (line : List Char) : '/' :: '/' :: (docText line).toList = commentLine line := by
  unfold docText commentLine
  split <;> simp

theorem written_docParts (indent : Nat) (documentation : String) :
    written (docParts indent documentation) = comment indent documentation := by
  unfold docParts comment
  by_cases hblank : Text.isBlankText documentation.toList = true
  · simp only [if_pos hblank, written_nil]
  · have hlines := lines_ne_nil (trimEnd_ne_nil (Bool.not_eq_true _ ▸ hblank))
    simp only [if_neg hblank]
    generalize Text.lines (Text.trimEnd documentation.toList) = lines at *
    rw [intercalate_append (by simpa using hlines), written_flatMap]
    refine String.toList_injective ?_
    rw [String.toList_join, String.toList_ofList, List.flatMap_map, List.flatMap_map]
    congr 1
    funext line
    simp [Part.written, ← toList_docText]

theorem written_paginationParts (p : PaginationView) :
    written (paginationParts p) = paginationComment p := by
  have hfirst : ("///\n    /// Paginated: items are in `" : String) =
      "//" ++ ("/" ++ ("\n" ++ ("    " ++ ("//" ++ "/ Paginated: items are in `")))) := by rfl
  have hsecond : ("),\n    /// follow `" : String) = ")," ++ ("\n" ++ ("    " ++ ("//" ++ "/ follow `"))) := by rfl
  have hlast : ("`.\n    " : String) = "`." ++ ("\n" ++ "    ") := by rfl
  unfold paginationParts paginationComment
  simp only [written_cons, written_nil, Part.written, hfirst, hsecond, hlast, String.append_assoc,
    String.append_empty]

theorem written_operationParts (o : OperationView) : written (operationParts o) = operationComment o := by
  have hfirst : ("///\n    /// Long-running: resolves to `" : String) =
      "//" ++ ("/" ++ ("\n" ++ ("    " ++ ("//" ++ "/ Long-running: resolves to `")))) := by rfl
  have hlast : ("`.\n    " : String) = "`." ++ ("\n" ++ "    ") := by rfl
  unfold operationParts operationComment
  simp only [written_cons, written_nil, Part.written, hfirst, hlast, String.append_assoc,
    String.append_empty]

theorem written_bodyParts (body : Option String) : written (bodyParts body) = bodyText body ++ "," := by
  unfold bodyParts bodyText
  cases body with
  | none => simp only [written_cons, written_nil, Part.written, String.append_empty]
  | some name =>
    cases hempty : name.isEmpty <;>
      simp only [hempty, if_true, Bool.false_eq_true, if_false, written_cons, written_nil, Part.written,
        literal, String.append_assoc, String.append_empty]

theorem written_listParts (ss : List String) : written (listParts ss) = ", ".intercalate (ss.map literal) := by
  fun_induction listParts ss with
  | case1 => rfl
  | case2 s => simp [Part.written, literal]
  | case3 s t rest ih =>
    rw [written_cons, written_cons, ih, List.map_cons, List.map_cons, List.map_cons,
      String.intercalate_cons_cons]
    simp only [Part.written, literal, String.append_assoc]

theorem written_requestParts (b : BindingView) (body : Option String) :
    written (requestParts b body) = request b body := by
  unfold requestParts request
  simp only [written_append, written_cons, written_nil, written_bodyParts, written_listParts, Part.written,
    literal, String.append_assoc, String.append_empty]

theorem written_methodParts (m : MethodView) : written (methodParts m) = method m := by
  have hpagination : written (m.pagination.elim [] paginationParts) =
      m.pagination.elim "" paginationComment := by
    cases m.pagination with
    | none => rfl
    | some p => exact written_paginationParts p
  have hoperation : written (m.operation.elim [] operationParts) = m.operation.elim "" operationComment := by
    cases m.operation with
    | none => rfl
    | some o => exact written_operationParts o
  unfold methodParts method
  cases m.bindings.head? <;>
    simp only [written_append, written_cons, written_nil, written_docParts, hpagination, hoperation,
      written_requestParts, Part.written, Option.elim_none, Option.elim_some, String.append_assoc,
      String.append_empty]

theorem written_constructorParts (host : String) :
    written (constructorParts host) = constructors host := by
  have hformat : ("        Self::with_endpoint(format!(\"https://\x7b\x7d\", Self::DEFAULT_HOST))\n" : String) =
      "        Self::with_endpoint(format!(" ++ ("\"" ++ ("https://\x7b\x7d" ++ ("\"" ++
        ", Self::DEFAULT_HOST))\n"))) := by rfl
  unfold constructorParts constructors
  simp only [written_cons, written_nil, Part.written, literal, hformat, String.append_assoc,
    String.append_empty]

theorem written_serviceParts (s : ServiceView) : written (serviceParts s) = service s := by
  have hmethods : written (s.methods.flatMap methodParts) = String.join (s.methods.map method) := by
    simp only [written_flatMap, written_methodParts]
  unfold serviceParts service
  simp only [written_append, written_cons, written_nil, written_docParts, written_constructorParts, hmethods,
    Part.written, String.append_assoc, String.append_empty]

theorem written_headerParts (title package : String) :
    written (headerParts title package) = header title package := by
  have htitle : ("//! " : String) = "//" ++ "! " := by rfl
  have hempty : ("//!\n" : String) = "//" ++ ("!" ++ "\n") := by rfl
  have hpackage : ("//! Request descriptions for `" : String) = "//" ++ "! Request descriptions for `" := by rfl
  have hend : ("`.\n" : String) = "`." ++ "\n" := by rfl
  have hgenerated : ("//! Generated by apigen. Do not edit.\n\n" : String) =
      "//" ++ ("! Generated by apigen. Do not edit." ++ ("\n" ++ "\n")) := by rfl
  have hshape : ("/// HTTP request shape of one RPC\n" : String) =
      "//" ++ ("/ HTTP request shape of one RPC" ++ "\n") := by rfl
  have hpath : ("    /// Path template, e.g. `/v1/\x7bname=projects/*/secrets/*\x7d`\n" : String) =
      "    " ++ ("//" ++ ("/ Path template, e.g. `/v1/\x7bname=projects/*/secrets/*\x7d`" ++ "\n")) := by rfl
  have hbody : ("    /// Request field sent as the body, `*` for the whole request\n" : String) =
      "    " ++ ("//" ++ ("/ Request field sent as the body, `*` for the whole request" ++ "\n")) := by rfl
  unfold headerParts header
  simp only [written_cons, written_nil, Part.written, htitle, hempty, hpackage, hend, hgenerated, hshape,
    hpath, hbody, String.append_assoc, String.append_empty]

end ClientSource

/-- **The text of a client skeleton is that of its parts.** -/
theorem clientSource_eq_written (v : ApiView) : v.clientSource = written v.sourceParts := by
  have hservices : written (v.services.flatMap serviceParts) = String.join (v.services.map service) := by
    simp only [written_flatMap, written_serviceParts]
  unfold ApiView.clientSource ApiView.sourceParts
  rw [written_append, written_headerParts, hservices]

end ApiModel
