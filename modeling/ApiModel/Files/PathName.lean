import ApiModel.Text.Piece
import ApiModel.Text.Quoted

/-!
# Path names

Paths as texts: names between slashes, where empty names and `.` say nothing, apart from a leading `.`
and the leading slash of an absolute path.
-/

namespace ApiModel.PathName

def isAbsolute (path : String) : Bool := path.toList.head? == some '/'

/-- A path inside a directory; an absolute path stays. -/
def join (directory path : String) : String :=
  if isAbsolute path || directory.isEmpty then path
  else if directory.toList.getLast? == some '/' then directory ++ path
  else directory ++ "/" ++ path

/-- The part of a path says nothing. -/
def isTrivial (part : List Char) : Bool := part.isEmpty || part == ['.']

/-- Drops the parts at the end that say nothing, but not the first; the list is reversed. -/
def trimParts : List (List Char) → List (List Char)
  | [] => []
  | [first] => [first]
  | part :: outer => if isTrivial part then trimParts outer else part :: outer

/-- The path without its last name; a path without a name has none. -/
def parent? (path : String) : Option String :=
  match trimParts (Text.pieces (· == '/') path.toList).reverse with
  | [] => none
  | [first] => if first.isEmpty then none else some ""
  | _ :: outer =>
    let parts := trimParts outer
    some (if parts = [[]] then "/" else String.ofList (List.intercalate ['/'] parts.reverse))

/-- A path and the paths around it, at most as many as `rounds`. -/
def ancestorsUpTo : (rounds : Nat) → String → List String
  | 0, _ => []
  | rounds + 1, path => path :: (parent? path).elim [] (ancestorsUpTo rounds)

/-- The path and the paths around it that name something, innermost first. -/
def ancestors (path : String) : List String :=
  (ancestorsUpTo (path.length + 1) path).takeWhile fun p => !p.isEmpty && (parent? p).isSome

/-- A path between double quotes, where single quotes are escaped as well. -/
def quoted (path : String) : String :=
  let escape (c : Char) : List Char := if c = '\'' then ['\\', '\''] else Text.escapeChar c
  String.ofList ('"' :: path.toList.flatMap escape ++ ['"'])

example : parent? "conf/settings.yaml" = some "conf" := by decide +kernel

example : parent? "settings.yaml" = some "" := by decide +kernel

example : parent? "/" = none := by decide +kernel

example : ancestors "a/b/c" = ["a/b/c", "a/b", "a"] := by decide +kernel

end ApiModel.PathName
