import ApiModel.Schema.Basic

/-!
# Names of a descriptor set

Every element has a full name, and no two elements share one; only packages may be named more than
once.  The values of an enumeration are named in the scope around it.

A name with a leading dot is a full name.  Any other name is looked up from the innermost scope
outwards.  The first part of a dotted name decides: the scope that has something of that name which
can hold names, seen or not, is the one where the whole name has to be found.
-/

namespace ApiModel

/-- What a full name stands for. -/
inductive DefinitionKind where
  | package | message | enumeration | service | extension | other
  deriving DecidableEq

/-- What a full name stands for, and the place of the file that declares it. -/
structure Definition where
  kind : DefinitionKind
  file : Nat

/-- The definition is a type of fields. -/
def DefinitionKind.isType (k : DefinitionKind) : Bool := k == .message || k == .enumeration

/-- Names can be declared inside. -/
def Definition.isScope (d : Definition) : Bool := d.kind != .extension && d.kind != .other

/-- A full name and what it stands for. -/
abbrev Declaration := String × DefinitionKind

section Collect

variable {ρ : Type}

def EnumDescriptor.declarations (scope : String) (e : EnumDescriptor) : List Declaration :=
  (qualifiedName scope e.name, .enumeration) ::
    e.values.map fun v => (qualifiedName scope v.name, .other)

/-- The declarations of a message without those of its nested types. -/
def MessageDescriptor.declarations (fullName : String) (m : MessageDescriptor ρ) : List Declaration :=
  (fullName, .message) ::
    (m.fields.map fun f => (qualifiedName fullName f.name, .other)) ++
    m.oneofs.map fun o => (qualifiedName fullName o.name, .other)

def ServiceDescriptor.declarations (scope : String) (s : ServiceDescriptor) : List Declaration :=
  let fullName := qualifiedName scope s.name
  (fullName, .service) :: s.methods.map fun m => (qualifiedName fullName m.name, .other)

/-- The scopes around a name, innermost first, ending with the nameless one. -/
def scopesFrom : List (List Char) → List String
  | [] => [""]
  | part :: outer =>
    String.ofList (List.intercalate ['.'] (outer.reverse ++ [part])) :: scopesFrom outer

/-- The scopes that a full name lies in, itself included. -/
def scopesOf (fullName : String) : List String :=
  scopesFrom (Text.pieces (· == '.') fullName.toList).reverse

/-- The packages that the package of a file names. -/
def packageDeclarations (package : String) : List Declaration :=
  if package.isEmpty then [] else ((scopesOf package).filter (!·.isEmpty)).map (·, .package)

/-- All declarations of a file. -/
def FileDescriptor.declarations (f : FileDescriptor ρ) : List Declaration :=
  packageDeclarations f.package ++
    (f.allMessages.flatMap fun (name, m) => m.declarations name) ++
    (f.allEnums.flatMap fun (scope, e) => e.declarations scope) ++
    (f.allExtensions.map fun (scope, e) => (qualifiedName scope e.name, .extension)) ++
    f.services.flatMap (·.declarations f.package)

/-- Adds a declaration; a name may be declared again only as a package. -/
def declare (file : Nat) (names : IdMap Definition) (d : Declaration) :
    Except SchemaError (IdMap Definition) :=
  match names.get? d.1 with
  | none => .ok (names.insert d.1 ⟨d.2, file⟩)
  | some old =>
    if old.kind = .package ∧ d.2 = .package then .ok names else .error (.duplicateName d.1)

/-- The names of all files. -/
def collectNames (files : List (FileDescriptor ρ)) : Except SchemaError (IdMap Definition) :=
  files.zipIdx.foldlM (fun names (f, i) => f.declarations.foldlM (declare i) names) ∅

end Collect

/-! ## Lookup -/

/-- The names that one file sees. -/
structure Visible where
  names : IdMap Definition
  /-- The places of the files whose declarations are seen. -/
  files : List Nat

namespace Visible

/-- The definition with a full name; packages are seen everywhere. -/
def find? (v : Visible) (fullName : String) : Option Definition :=
  (v.names.get? fullName).filter fun d => d.kind == .package || v.files.contains d.file

/-- The definition with a full name, if it is of a kind that is looked for. -/
def wanted? (v : Visible) (isWanted : DefinitionKind → Bool) (fullName : String) :
    Option (String × Definition) :=
  ((v.find? fullName).filter fun d => isWanted d.kind).map (fullName, ·)

/-- Looks a name of one part up in scopes. -/
def simple? (v : Visible) (isWanted : DefinitionKind → Bool) (name : String)
    (scopes : List String) : Option (String × Definition) :=
  scopes.findSome? fun scope => v.wanted? isWanted (qualifiedName scope name)

/-- Looks a dotted name up in the first scope that has something of its first part; files that are not
seen count here. -/
def dotted? (v : Visible) (isWanted : DefinitionKind → Bool) (first name : String)
    (scopes : List String) : Option (String × Definition) := do
  let scope ← scopes.find? fun scope =>
    (v.names.get? (qualifiedName scope first)).any (·.isScope)
  v.wanted? isWanted (qualifiedName scope name)

/-- What a name stands for inside a scope, with its full name; definitions of kinds that are not
looked for hide nothing. -/
def resolve? (v : Visible) (isWanted : DefinitionKind → Bool) (scope name : String) :
    Option (String × Definition) :=
  match name.toList with
  | '.' :: fullName => v.wanted? isWanted (String.ofList fullName)
  | cs =>
    match Text.cutFirst '.' cs with
    | some (first, _) => v.dotted? isWanted (String.ofList first) name (scopesOf scope)
    | none => v.simple? isWanted name (scopesOf scope)

end Visible

/-! ## Imports -/

section Imports

variable {ρ : Type}

/-- The place of the file with a name. -/
def fileIndex? (files : List (FileDescriptor ρ)) (name : String) : Option Nat :=
  files.findIdx? (·.name == name)

/-- The places of the imports of the file at a place. -/
def importsOf (files : List (FileDescriptor ρ)) (i : Nat) : List Nat :=
  (files[i]?.elim [] (·.dependencies)).filterMap (fileIndex? files)

/-- The places of the imports that the file at a place hands on. -/
def publicImportsOf (files : List (FileDescriptor ρ)) (i : Nat) : List Nat :=
  files[i]?.elim [] fun f =>
    f.publicDependencies.filterMap fun k =>
      if 0 ≤ k then f.dependencies[k.toNat]?.bind (fileIndex? files) else none

/-- The places of the files that the file at a place sees: itself, its imports, and what these hand on;
what reaches an import by being handed on is not handed on again. -/
def visibleFiles (files : List (FileDescriptor ρ)) (i : Nat) : List Nat :=
  i :: importsOf files i ++ (importsOf files i).flatMap (publicImportsOf files)

end Imports

end ApiModel
