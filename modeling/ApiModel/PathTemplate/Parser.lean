import ApiModel.PathTemplate.Basic
import ApiModel.Text.Piece

/-!
# Reading path templates

A template is a slash, segments joined by slashes, and a verb behind the first colon outside braces.
Slashes and colons inside braces belong to a variable.  A resource pattern is read by the same
segment rules; a colon has no meaning there.

Reading works in three passes over characters, each a structural recursion: `splitVerb` parts the
verb from the path, `splitSegments` parts the path at slashes outside braces, and `readSegment` reads
one piece.  The first pass that fails gives the fault.
-/

namespace ApiModel.PathTemplate

open ApiModel.Text

/-- Characters that neither a literal nor a verb may hold at the top level. -/
def isDelimiter (c : Char) : Bool := c == '/' || c == '\x7b' || c == '\x7d' || c == ':'

def isBrace (c : Char) : Bool := c == '\x7b' || c == '\x7d'

/-- A field name is made of ASCII letters, digits and underscores. -/
def isNameChar (c : Char) : Bool := c.isAlphanum || c == '_'

def isFieldName (s : List Char) : Bool := !s.isEmpty && s.all isNameChar

/-- Parts the verb from the path, `depth` braces being open. -/
def splitVerb (depth : Nat) : List Char → Except Fault (List Char × Option (List Char))
  | [] => if depth = 0 then .ok ([], none) else .error .unterminatedVariable
  | c :: rest =>
    if c = '\x7b' then do
      let (path, verb) ← splitVerb (depth + 1) rest
      return (c :: path, verb)
    else if c = '\x7d' then
      match depth with
      | 0 => .error .unbalancedBrace
      | depth + 1 => do
        let (path, verb) ← splitVerb depth rest
        return (c :: path, verb)
    else if c = ':' ∧ depth = 0 then
      if rest.isEmpty || rest.any isDelimiter then .error (.invalidVerb (String.ofList rest))
      else .ok ([], some rest)
    else do
      let (path, verb) ← splitVerb depth rest
      return (c :: path, verb)

/-- Puts a character in front of the first piece. -/
def extendFirst (c : Char) : List (List Char) → List (List Char)
  | [] => [[c]]
  | piece :: more => (c :: piece) :: more

/-- Parts a path at the slashes outside braces, `depth` braces being open. -/
def splitSegments (depth : Nat) : List Char → Except Fault (List (List Char))
  | [] => if depth = 0 then .ok [[]] else .error .unterminatedVariable
  | c :: rest =>
    if c = '\x7b' then (splitSegments (depth + 1) rest).map (extendFirst c)
    else if c = '\x7d' then
      match depth with
      | 0 => .error .unbalancedBrace
      | depth + 1 => (splitSegments depth rest).map (extendFirst c)
    else if c = '/' ∧ depth = 0 then (splitSegments depth rest).map ([] :: ·)
    else (splitSegments depth rest).map (extendFirst c)

/-- Reads the pattern of a variable; without one the variable matches a single segment. -/
def readPattern (piece : List Char) : Option (List Char) → Except Fault (List String)
  | none => .ok PathVariable.anySegment
  | some pattern =>
    let segments := pieces (· == '/') pattern
    if segments.any fun s => s.isEmpty || s.any isBrace then
      .error (.invalidPattern (String.ofList piece))
    else .ok (segments.map String.ofList)

/-- Reads what stands between the braces of a variable; `piece` is the whole segment. -/
def readVariable (piece inner : List Char) : Except Fault PathVariable :=
  let (names, pattern) :=
    match cutFirst '=' inner with
    | some (names, pattern) => (names, some pattern)
    | none => (inner, none)
  let fieldPath := pieces (· == '.') names
  if fieldPath.all isFieldName then do
    let segments ← readPattern piece pattern
    return { fieldPath := fieldPath.map String.ofList, segments }
  else .error (.invalidFieldPath (String.ofList piece))

/-- Reads one segment. -/
def readSegment : List Char → Except Fault PathSegment
  | [] => .error .emptySegment
  | c :: rest =>
    if c = '\x7b' then
      match ahead? ['\x7d'] rest with
      | none => .error (.malformedVariable (String.ofList (c :: rest)))
      | some inner => (readVariable (c :: rest) inner).map .bound
    else if (c :: rest).any isBrace then .error (.malformedSegment (String.ofList (c :: rest)))
    else .ok (.literal (String.ofList (c :: rest)))

/-- Reads segments joined by slashes. -/
def readSegments (path : List Char) : Except Fault (List PathSegment) := do
  (← splitSegments 0 path).mapM readSegment

/-- Reads a template's characters. -/
def readTemplate : List Char → Except Fault PathTemplate
  | '/' :: rest => do
    let (path, verb) ← splitVerb 0 rest
    let segments ← readSegments path
    return { segments, verb := verb.map String.ofList }
  | _ => .error .noLeadingSlash

/-- Reads a path such as `/v1/{name=projects/*/secrets/*}:access`. -/
def parse (s : String) : Except Error PathTemplate :=
  (readTemplate s.toList).mapError fun fault => ⟨s, fault⟩

/-- Reads a resource pattern such as `projects/{project}/secrets/{secret}`. -/
def parsePattern (s : String) : Except Error (List PathSegment) :=
  (readSegments s.toList).mapError fun fault => ⟨s, fault⟩

end ApiModel.PathTemplate
