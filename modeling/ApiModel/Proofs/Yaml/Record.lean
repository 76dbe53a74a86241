import ApiModel.Proofs.Yaml.Block

/-!
# Records by the core schema

Reading nodes into values of known types where a plain scalar counts for what it looks like, and the blocks
of records, some of whose members are left out.

Principal result: `memberOr_membersOf` — a member is read if it is there.
-/

namespace ApiModel.Yaml

/-! ## Values -/

namespace Node

variable {α : Type}

def text? : Node → Option String
  | .scalar plain none s => if plain && !Core.isText s then none else some s
  | _ => none

def flag? : Node → Option Bool
  | .scalar true none s =>
    if Core.trueWords.contains s then some true
    else if Core.falseWords.contains s then some false
    else none
  | _ => none

def list? (read : Node → Option α) : Node → Option (List α)
  | .sequence items => items.mapM read
  | _ => none

/-- The members of a record by their keys. -/
def members? : Node → Option (List (String × Node))
  | .mapping entries => entries.mapM fun e => do return (← e.1.text?, e.2)
  | _ => none

@[simp]
theorem text?_quoted (s : String) : (Block.inline (.quoted s)).node.text? = some s := rfl

theorem text?_plain {s : String} (h : Core.isText s = true) :
    (Block.inline (.plain s)).node.text? = some s := by
  simp [Block.node, Inline.node, text?, h]

@[simp]
theorem flag?_plain (b : Bool) :
    (Block.inline (.plain (if b then "true" else "false"))).node.flag? = some b := by
  cases b <;> rfl

@[simp]
theorem texts?_list (ss : List String) : (Block.inline (.list ss)).node.list? text? = some ss := by
  show (ss.map (Node.scalar false none ·)).mapM text? = some ss
  induction ss with
  | nil => rfl
  | cons s ss ih =>
    rw [List.map_cons, List.mapM_cons, ih]
    rfl

end Node

/-- A member that may be left out. -/
def optionalMember {α : Type} (read : Node → Option α) :
    List (String × Node) → String → Option (Option α) :=
  memberOr (some none) fun n => (read n).map some

/-! ## Records -/

/-- The members that are not left out. -/
def present (fields : List (String × Option Block)) : List (String × Block) :=
  fields.filterMap fun f => f.2.map (f.1, ·)

/-- A member that is left out if the list is empty. -/
def unlessEmpty {α : Type} (xs : List α) (b : Block) : Option Block := if xs.isEmpty then none else some b

variable {α β γ : Type} {fields : List (String × Option Block)} {es : List (String × Block)}

@[simp]
theorem present_nil : present [] = [] := rfl

@[simp]
theorem present_some (key : String) (b : Block) :
    present ((key, some b) :: fields) = (key, b) :: present fields := rfl

@[simp]
theorem present_none (key : String) : present ((key, none) :: fields) = present fields := rfl

theorem mem_present {e : String × Block} : e ∈ present fields ↔ (e.1, some e.2) ∈ fields := by
  obtain ⟨key, b⟩ := e
  simp only [present, List.mem_filterMap, Option.map_eq_some_iff, Prod.mk.injEq]
  constructor
  · rintro ⟨⟨k, o⟩, hf, b', rfl, rfl, rfl⟩
    exact hf
  · exact fun hf => ⟨(key, some b), hf, b, rfl, rfl, rfl⟩

theorem lookup_present (h : (fields.map (·.1)).Nodup) (key : String) :
    (present fields).lookup key = (fields.lookup key).join := by
  induction fields with
  | nil => rfl
  | cons f fields ih =>
    obtain ⟨k, o⟩ := f
    obtain ⟨hk, hnodup⟩ := List.nodup_cons.1 h
    have hrest := ih hnodup
    by_cases heq : key = k
    · subst heq
      have hnone : fields.lookup key = none := by
        rw [List.lookup_eq_none_iff]
        intro f hf
        have hne : key ≠ f.1 := fun heq => hk (List.mem_map.2 ⟨f, hf, heq.symm⟩)
        simpa using hne
      cases o with
      | none => simp [hrest, hnone]
      | some b => simp
    · have hne : (key == k) = false := by simpa using heq
      cases o <;> simp [List.lookup_cons, hne, hrest]

theorem written_entries (h : ∀ e ∈ es, IsKey e.1 ∧ e.2.Written) : Block.EntriesWritten es := by
  induction es with
  | nil => trivial
  | cons e es ih =>
    obtain ⟨⟨hkey, hb⟩, hes⟩ := List.forall_mem_cons.1 h
    exact ⟨hkey, hb, ih hes⟩

theorem written_present (fields : List (String × Option Block)) (hkeys : ∀ key ∈ fields.map (·.1), IsKey key)
    (hblocks : ∀ f ∈ fields, ∀ b ∈ f.2, b.Written) : Block.EntriesWritten (present fields) :=
  written_entries fun _ he =>
    have hmem := mem_present.1 he
    ⟨hkeys _ (List.mem_map_of_mem hmem), hblocks _ hmem _ rfl⟩

theorem written_items {is : List (List (String × Block))}
    (h : ∀ es ∈ is, es ≠ [] ∧ Block.EntriesWritten es) : Block.ItemsWritten is := by
  induction is with
  | nil => trivial
  | cons es is ih =>
    obtain ⟨⟨hne, hes⟩, his⟩ := List.forall_mem_cons.1 h
    exact ⟨hne, hes, ih his⟩

/-- The members of a record are those of its block. -/
theorem members?_mapping (h : Block.EntriesWritten es) :
    (Block.mapping es).node.members? = some (es.map fun e => (e.1, e.2.node)) := by
  induction es with
  | nil => rfl
  | cons e es ih =>
    obtain ⟨key, b⟩ := e
    have hmore : (Block.entryNodes es).mapM (fun e => do return (← e.1.text?, e.2)) =
        some (es.map fun e => (e.1, e.2.node)) := ih h.2.2
    have hkey : (Node.scalar true none key).text? = some key := Node.text?_plain h.1.2.2.2
    show (Block.entryNodes ((key, b) :: es)).mapM _ = _
    rw [Block.entryNodes, List.mapM_cons, hmore]
    simp only [hkey]
    rfl

/-! ## Members -/

/-- The members of a record for a reader. -/
def membersOf (fields : List (String × Option Block)) : List (String × Node) :=
  (present fields).map fun e => (e.1, e.2.node)

theorem members?_present (h : Block.EntriesWritten (present fields)) :
    (Block.mapping (present fields)).node.members? = some (membersOf fields) :=
  members?_mapping h

section Members

variable {read : Node → Option β} {key : String} {b : Block}

/-- **A member is read if it is there.** -/
theorem memberOr_membersOf (h : (fields.map (·.1)).Nodup) (missing : Option β) :
    memberOr missing read (membersOf fields) key =
      (fields.lookup key).join.elim missing fun b => read b.node := by
  have hlookup : (membersOf fields).lookup key = (fields.lookup key).join.map (·.node) := by
    rw [← lookup_present h]
    unfold membersOf
    induction present fields with
    | nil => rfl
    | cons e es ih =>
      rw [List.map_cons, List.lookup_cons, List.lookup_cons, ih]
      cases key == e.1 <;> rfl
  unfold memberOr
  rw [hlookup]
  cases (fields.lookup key).join <;> rfl

theorem member_present (missing : Option β) {y : β} (hnodup : (fields.map (·.1)).Nodup) (key : String)
    (hkey : fields.lookup key = some (some b)) (h : read b.node = some y) :
    memberOr missing read (membersOf fields) key = some y := by
  rw [memberOr_membersOf hnodup, hkey]
  exact h

theorem listMember_present {xs : List α} {ys : List γ} {read : Node → Option (List γ)}
    (hnodup : (fields.map (·.1)).Nodup) (key : String) (hkey : fields.lookup key = some (unlessEmpty xs b))
    (h : read b.node = some ys) (hempty : xs = [] → ys = []) :
    memberOr (some []) read (membersOf fields) key = some ys := by
  rw [memberOr_membersOf hnodup, hkey]
  cases xs with
  | nil => rw [hempty rfl]; rfl
  | cons x xs => exact h

theorem optionalMember_present {o : Option α} {f : α → Block} {g : α → β}
    (hnodup : (fields.map (·.1)).Nodup) (key : String) (hkey : fields.lookup key = some (o.map f))
    (h : ∀ a ∈ o, read (f a).node = some (g a)) :
    optionalMember read (membersOf fields) key = some (o.map g) := by
  unfold optionalMember
  rw [memberOr_membersOf hnodup, hkey]
  cases o with
  | none => rfl
  | some a =>
    show (read (f a).node).map some = _
    rw [h a rfl]
    rfl

end Members

/-- Items are read one by one. -/
theorem list?_items {read : Node → Option β} {f : α → List (String × Block)} {g : α → β} {xs : List α}
    (h : ∀ x ∈ xs, read (Block.mapping (f x)).node = some (g x)) :
    (Block.items (xs.map f)).node.list? read = some (xs.map g) := by
  show (Block.itemNodes (xs.map f)).mapM read = _
  induction xs with
  | nil => rfl
  | cons x xs ih =>
    obtain ⟨hx, hxs⟩ := List.forall_mem_cons.1 h
    have hx : read (.mapping (Block.entryNodes (f x))) = some (g x) := hx
    simp [Block.itemNodes, hx, ih hxs]

end ApiModel.Yaml
