import ApiModel.Manifest
import ApiModel.Proofs.Yaml.Document
import ApiModel.Proofs.Yaml.Record

/-!
# The manifest as a document

A manifest is a record under a comment; its members are records and lists of records.

Principal result: `manifest_eq_documentText` — **the text of a manifest is that of the record**.
-/

namespace ApiModel

open Yaml

/-! ## Records -/

def plainBlock (s : String) : Block := .inline (.plain s)

def quotedBlock (s : String) : Block := .inline (.quoted s)

def listBlock (ss : List String) : Block := .inline (.list ss)

def flagBlock (b : Bool) : Block := .inline (.plain (if b then "true" else "false"))

/-- A text that is missing or empty is not shown. -/
def shownText (s : Option String) : Option String := s.filter (!·.isEmpty)

namespace BindingView

def targetFields' (b : BindingView) (template : String) : List (String × Option Block) :=
  [("template", some (quotedBlock template)), ("fields", some (listBlock b.targetFields))]

def fields (b : BindingView) : List (String × Option Block) :=
  [("verb", some (plainBlock b.verb)), ("path", some (quotedBlock b.path)),
    ("query", unlessEmpty b.queryParameters (listBlock b.queryParameters)),
    ("target_resource", (shownText b.targetTemplate).map fun t => .mapping (present (b.targetFields' t)))]

end BindingView

def PaginationView.fields (p : PaginationView) : List (String × Option Block) :=
  [("page_token", some (plainBlock p.pageToken)), ("next_page_token", some (plainBlock p.nextPageToken)),
    ("item", some (plainBlock p.item)), ("item_type", some (quotedBlock p.itemType))]

def OperationView.fields (o : OperationView) : List (String × Option Block) :=
  [("response", some (quotedBlock o.responseType)), ("metadata", some (quotedBlock o.metadataType))]

def MethodView.fields (m : MethodView) : List (String × Option Block) :=
  [("name", some (plainBlock m.name)), ("id", some (quotedBlock m.id)),
    ("input", some (quotedBlock m.inputType)), ("output", some (quotedBlock m.outputType)),
    ("standard", m.standard.map fun s => plainBlock s.kind),
    ("standard_field", m.standard.map fun s => plainBlock s.field),
    ("simple", some (flagBlock m.isSimple)), ("lro", some (flagBlock m.isLro)),
    ("list", some (flagBlock m.isList)), ("streaming", some (flagBlock m.isStreaming)),
    ("body", (shownText m.body).map quotedBlock),
    ("pagination", m.pagination.map fun p => .mapping (present p.fields)),
    ("operation", m.operation.map fun o => .mapping (present o.fields)),
    ("bindings", unlessEmpty m.bindings (.items (m.bindings.map fun b => present b.fields)))]

def ServiceView.fields (s : ServiceView) : List (String × Option Block) :=
  [("name", some (plainBlock s.name)), ("id", some (quotedBlock s.id)),
    ("host", some (quotedBlock s.defaultHost)),
    ("deprecated", if s.deprecated then some (flagBlock true) else none),
    ("methods", some (.items (s.methods.map fun m => present m.fields)))]

def ResourceView.fields (r : ResourceView) : List (String × Option Block) :=
  [("type", some (quotedBlock r.kind)), ("singular", some (quotedBlock r.singular)),
    ("plural", some (quotedBlock r.plural)), ("patterns", some (listBlock r.patterns))]

def ApiView.fields (v : ApiView) : List (String × Option Block) :=
  [("name", some (quotedBlock v.name)), ("title", some (quotedBlock v.title)),
    ("package", some (quotedBlock v.package)),
    ("description", (shownText (some v.description)).map quotedBlock),
    ("services", some (.items (v.services.map fun s => present s.fields))),
    ("resources", unlessEmpty v.resources (.items (v.resources.map fun r => present r.fields)))]

/-! ## Texts -/

namespace Manifest

/-- The lines of the entries of a mapping. -/
def entriesText (column : Nat) (es : List (String × Block)) : String :=
  String.join ((Block.entryLines column es).map (·.text))

/-- The lines of items. -/
def itemsText (column : Nat) (is : List (List (String × Block))) : String :=
  String.join ((Block.itemLines column is).map (·.text))

variable {column : Nat} {key : String} {es fs : List (String × Block)}
  {is : List (List (String × Block))}

@[simp]
theorem entriesText_nil : entriesText column [] = "" := rfl

@[simp]
theorem itemsText_nil : itemsText column [] = "" := rfl

theorem text_inline (v : Inline) : (Line.mk column false key (some v)).text = plain column key v.text := by
  have hcolon : (": " : String) = ":" ++ " " := rfl
  unfold Line.text Line.body Line.start plain line
  simp only [Bool.false_eq_true, if_false, Option.elim_some, hcolon, String.append_assoc,
    String.empty_append]

theorem text_dashed (v : Inline) :
    (Line.mk (column + 2) true key (some v)).text = plain column ("- " ++ key) v.text := by
  have hcolon : (": " : String) = ":" ++ " " := rfl
  unfold Line.text Line.body Line.start plain line
  simp only [if_true, Option.elim_some, hcolon, String.append_assoc, Nat.add_sub_cancel]

theorem text_heading : (Line.mk column false key none).text = line column ++ key ++ ":" := by
  unfold Line.text Line.body Line.start line
  simp only [Bool.false_eq_true, if_false, Option.elim_none, String.append_assoc, String.empty_append,
    String.append_empty]

theorem entriesText_cons (b : Block) :
    entriesText column ((key, b) :: es) = (Line.mk column false key b.inline?).text ++
      (String.join ((b.lines (column + 2)).map (·.text)) ++ entriesText column es) := by
  unfold entriesText
  rw [Block.entryLines_cons, List.map_cons, List.map_append, String.join_cons, String.join_append]

@[simp]
theorem entriesText_inline (v : Inline) :
    entriesText column ((key, .inline v) :: es) = plain column key v.text ++ entriesText column es := by
  rw [entriesText_cons, Block.inline?, text_inline, Block.lines]
  simp

@[simp]
theorem entriesText_mapping :
    entriesText column ((key, .mapping fs) :: es) =
      line column ++ key ++ ":" ++ (entriesText (column + 2) fs ++ entriesText column es) := by
  rw [entriesText_cons, Block.inline?, text_heading, Block.lines]
  rfl

@[simp]
theorem entriesText_items :
    entriesText column ((key, .items is) :: es) =
      heading column key is.isEmpty ++ (itemsText (column + 2) is ++ entriesText column es) := by
  rw [entriesText_cons, Block.lines]
  cases is with
  | nil =>
    have hlist : (Inline.list []).text = "[]" := rfl
    have hempty : (": " : String) ++ "[]" = ":" ++ " []" := rfl
    rw [Block.inline?, text_inline, hlist]
    unfold heading plain
    simp [String.append_assoc, hempty, Block.itemLines]
  | cons fs is =>
    rw [Block.inline?, text_heading]
    unfold heading
    simp [itemsText]

theorem itemsText_cons (v : Inline) :
    itemsText column (((key, .inline v) :: es) :: is) =
      plain column ("- " ++ key) v.text ++ (entriesText (column + 2) es ++ itemsText column is) := by
  have hlines : Block.itemLines column (((key, .inline v) :: es) :: is) =
      Line.mk (column + 2) true key (some v) ::
        (Block.entryLines (column + 2) es ++ Block.itemLines column is) := rfl
  unfold itemsText
  rw [hlines, List.map_cons, List.map_append, String.join_cons, String.join_append, text_dashed]
  rfl

theorem itemsText_plain (s : String) :
    itemsText column (((key, plainBlock s) :: es) :: is) =
      plain column ("- " ++ key) s ++ (entriesText (column + 2) es ++ itemsText column is) :=
  itemsText_cons _

/-- The lines of items, item by item. -/
theorem itemsText_map {α : Type} {f : α → List (String × Block)} {g : α → String}
    (h : ∀ x is, itemsText column (f x :: is) = g x ++ itemsText column is) (xs : List α) :
    itemsText column (xs.map f) = String.join (xs.map g) := by
  induction xs with
  | nil => rfl
  | cons x xs ih => rw [List.map_cons, h, ih, List.map_cons, String.join_cons]

variable {fields : List (String × Option Block)}

@[simp]
theorem entriesText_plain (s : String) :
    entriesText column ((key, plainBlock s) :: es) = plain column key s ++ entriesText column es :=
  entriesText_inline _

@[simp]
theorem entriesText_quoted (s : String) :
    entriesText column ((key, quotedBlock s) :: es) = quoted column key s ++ entriesText column es :=
  entriesText_inline _

@[simp]
theorem entriesText_list (ss : List String) :
    entriesText column ((key, listBlock ss) :: es) = list column key ss ++ entriesText column es :=
  entriesText_inline _

@[simp]
theorem entriesText_flag (b : Bool) :
    entriesText column ((key, flagBlock b) :: es) = flag column key b ++ entriesText column es :=
  entriesText_inline _

theorem entriesText_optional (s : Option String) :
    entriesText column (present ((key, (shownText s).map quotedBlock) :: fields)) =
      optional column key s ++ entriesText column (present fields) := by
  unfold optional shownText
  cases s with
  | none => simp
  | some s => cases h : s.isEmpty <;> simp [h, Option.filter]

theorem entriesText_unlessEmpty {α : Type} (xs : List α) (b : Block) :
    entriesText column (present ((key, unlessEmpty xs b) :: fields)) =
      (if xs.isEmpty then "" else entriesText column [(key, b)]) ++ entriesText column (present fields) := by
  unfold unlessEmpty
  cases xs with
  | nil => simp
  | cons x xs => 
    simp [entriesText_cons, String.append_assoc]

/-- A list of records is left out if it is empty. -/
theorem entriesText_block {α : Type} {f : α → List (String × Block)} {g : α → String}
    (h : ∀ x is, itemsText (column + 2) (f x :: is) = g x ++ itemsText (column + 2) is) (xs : List α) :
    entriesText column (present ((key, unlessEmpty xs (.items (xs.map f))) :: fields)) =
      block column key g xs ++ entriesText column (present fields) := by
  rw [entriesText_unlessEmpty]
  unfold block
  cases xs with
  | nil => rfl
  | cons x xs => simp [h, itemsText_map h, heading, String.append_assoc]

/-! ## Bindings -/

theorem entriesText_target (b : BindingView) :
    entriesText 12 (present [("target_resource", (shownText b.targetTemplate).map fun t =>
      .mapping (present (b.targetFields' t)))]) = target b := by
  unfold target shownText
  cases b.targetTemplate with
  | none => simp
  | some t =>
    cases h : t.isEmpty <;> simp [h, Option.filter, BindingView.targetFields', String.append_assoc]

theorem itemsText_binding (b : BindingView) (is : List (List (String × Block))) :
    itemsText 10 (present b.fields :: is) = binding b ++ itemsText 10 is := by
  have htarget := entriesText_target b
  have hverb : ("- " : String) ++ "verb" = "- verb" := rfl
  unfold BindingView.fields binding
  rw [present_some, itemsText_plain, present_some, entriesText_quoted, entriesText_unlessEmpty, htarget,
    hverb]
  simp [String.append_assoc]

/-! ## Methods -/

theorem entriesText_standard (s : Option StandardView) :
    entriesText 8 (present (("standard", s.map fun s => plainBlock s.kind) ::
      ("standard_field", s.map fun s => plainBlock s.field) :: fields)) =
      s.elim "" standard ++ entriesText 8 (present fields) := by
  cases s <;> simp [standard, String.append_assoc]

theorem entriesText_pagination (p : Option PaginationView) :
    entriesText 8 (present (("pagination", p.map fun p => .mapping (present p.fields)) :: fields)) =
      p.elim "" pagination ++ entriesText 8 (present fields) := by
  cases p with
  | none => simp
  | some p => simp [PaginationView.fields, pagination, String.append_assoc]

theorem entriesText_operation (o : Option OperationView) :
    entriesText 8 (present (("operation", o.map fun o => .mapping (present o.fields)) :: fields)) =
      o.elim "" operation ++ entriesText 8 (present fields) := by
  cases o with
  | none => simp
  | some o => simp [OperationView.fields, operation, String.append_assoc]

theorem itemsText_method (m : MethodView) (is : List (List (String × Block))) :
    itemsText 6 (present m.fields :: is) = method m ++ itemsText 6 is := by
  have hname : ("- " : String) ++ "name" = "- name" := rfl
  unfold MethodView.fields method
  rw [present_some, itemsText_plain, hname]
  simp only [present_some, entriesText_quoted]
  rw [entriesText_standard]
  simp only [present_some, entriesText_flag]
  rw [entriesText_optional, entriesText_pagination, entriesText_operation,
    entriesText_block itemsText_binding]
  simp [String.append_assoc]

/-! ## Services and resources -/

theorem itemsText_service (s : ServiceView) (is : List (List (String × Block))) :
    itemsText 2 (present s.fields :: is) = service s ++ itemsText 2 is := by
  have hname : ("- " : String) ++ "name" = "- name" := rfl
  unfold ServiceView.fields service
  rw [present_some, itemsText_plain, hname]
  cases s.deprecated <;> simp [itemsText_map itemsText_method, String.append_assoc]

theorem itemsText_resource (r : ResourceView) (is : List (List (String × Block))) :
    itemsText 2 (present r.fields :: is) = resource r ++ itemsText 2 is := by
  have htype : ("- " : String) ++ "type" = "- type" := rfl
  unfold ResourceView.fields resource
  rw [present_some, quotedBlock, itemsText_cons, htype]
  simp [quoted, Inline.text, String.append_assoc]

end Manifest

/-- The first line of a manifest behind the number sign. -/
def ApiView.comment (v : ApiView) : String := " Generated by apigen from " ++ v.package ++ ". Do not edit."

open Manifest in
/-- **The text of a manifest is that of its record** under a comment. -/
theorem manifest_eq_documentText (v : ApiView) :
    v.manifest = documentText v.comment (present v.fields) := by
  have hcomment : ("# Generated by apigen from " : String) = "#" ++ " Generated by apigen from " := rfl
  show _ = "#" ++ v.comment ++ entriesText 0 (present v.fields) ++ "\n"
  unfold ApiView.manifest ApiView.fields ApiView.comment
  simp only [present_some, entriesText_quoted]
  rw [entriesText_optional, present_some, entriesText_items, itemsText_map itemsText_service,
    entriesText_block itemsText_resource, hcomment]
  simp only [present_nil, entriesText_nil, String.append_empty, List.isEmpty_map, String.append_assoc]

end ApiModel
