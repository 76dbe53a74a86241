import ApiModel.Yaml.Node

/-!
# Records in YAML

Reading a document into values of known types.  Any scalar is a text, whatever it looks like; only
where a text may be missing does a plain `null` stand for none.  A list or a record that is left out is
empty.  Members of a record that are not known are skipped, and known ones stand at most once.

`none` is a node of another shape than the value has.
-/

namespace ApiModel.Yaml

namespace Document

variable {α : Type}

/-- The node itself, or the one that it is an alias of. -/
def follow (d : Document) (n : Node) : Node :=
  match n with
  | .alias number => (d.anchors.get? number).getD n
  | n => n

/-- The node is left out. -/
def isOmitted : Node → Bool
  | .scalar plain _ text => plain && text.isEmpty
  | _ => false

/-- The words for a missing value. -/
def nullWords : List String := ["null", "Null", "NULL", "~"]

def nullTag : String := "tag:yaml.org,2002:null"

def text? (d : Document) (n : Node) : Option String :=
  match d.follow n with
  | .scalar _ _ text => some text
  | _ => none

/-- A text that may be missing: left out or a plain word for it.  A tag other than the one for a
missing value makes any text a text. -/
def textOrNull? (d : Document) (n : Node) : Option (Option String) :=
  match d.follow n with
  | .scalar true none text => some (if text.isEmpty || nullWords.contains text then none else some text)
  | .scalar true (some tag) text =>
    if tag ≠ nullTag then some (some text) else if nullWords.contains text then some none else none
  | .scalar false _ text => some (some text)
  | _ => none

def list? (d : Document) (read : Node → Option α) (n : Node) : Option (List α) :=
  match d.follow n with
  | .sequence items => items.mapM read
  | n => if isOmitted n then some [] else none

/-- The members of a record: of the known keys, each at most once. -/
def members? (d : Document) (known : List String) (n : Node) : Option (List (String × Node)) :=
  match d.follow n with
  | .mapping entries => do
    let members ← entries.mapM fun (k, v) => do return (← d.text? k, v)
    let members := members.filter fun m => known.contains m.1
    guard (known.all fun key => (members.filter (·.1 == key)).length ≤ 1)
    return members
  | n => if isOmitted n then some [] else none

/-- The members of a document's record; a text without content has none. -/
def rootMembers? (d : Document) (known : List String) : Option (List (String × Node)) :=
  match d.root with
  | some n => d.members? known n
  | none => some []

end Document

/-- Reads a member of a record, or takes a value in its place if it is missing. -/
def memberOr {α : Type} (missing : Option α) (read : Node → Option α)
    (members : List (String × Node)) (key : String) : Option α :=
  match members.lookup key with
  | some n => read n
  | none => missing

end ApiModel.Yaml
