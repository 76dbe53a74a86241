import ApiModel.Text.Quoted

/-!
# Path templates

The path of an HTTP binding, such as `/v1/{name=projects/*/secrets/*}:access`: segments that are
literals or variables bound to a request field, and an optional verb.  A resource pattern is a list
of such segments without the leading slash.

`text` writes a template; a variable over one segment is written without its pattern.
-/

namespace ApiModel

/-- A variable such as `{name=projects/*/secrets/*}`. -/
structure PathVariable where
  /-- The names on the way from the request to the bound field. -/
  fieldPath : List String
  /-- What the variable matches: literals, `*` or `**`. -/
  segments : List String
  deriving DecidableEq

/-- One part of a path between slashes. -/
inductive PathSegment where
  | literal (text : String)
  | bound (v : PathVariable)
  deriving DecidableEq

/-- The path of an HTTP binding. -/
structure PathTemplate where
  segments : List PathSegment := []
  verb : Option String := none
  deriving DecidableEq

namespace PathVariable

/-- The pattern of a variable that is written without one. -/
def anySegment : List String := ["*"]

/-- The variable matches one segment, whatever it is. -/
def isSingle (v : PathVariable) : Bool := v.segments == anySegment

/-- The dotted field path. -/
def fieldName (v : PathVariable) : String := ".".intercalate v.fieldPath

/-- The variable with its pattern spelled out. -/
def longText (v : PathVariable) : String :=
  "\x7b" ++ v.fieldName ++ "=" ++ "/".intercalate v.segments ++ "\x7d"

/-- The variable as it is written: the pattern `*` is left out. -/
def text (v : PathVariable) : String :=
  if v.isSingle then "\x7b" ++ v.fieldName ++ "\x7d" else v.longText

end PathVariable

namespace PathSegment

def text : PathSegment → String
  | .literal s => s
  | .bound v => v.text

def binding? : PathSegment → Option PathVariable
  | .literal _ => none
  | .bound v => some v

def isBound (s : PathSegment) : Bool := s.binding?.isSome

/-- The segments of a resource pattern, joined by slashes. -/
def patternText (segments : List PathSegment) : String := "/".intercalate (segments.map text)

end PathSegment

namespace PathTemplate

/-- The variables in the order of their segments. -/
def boundVariables (t : PathTemplate) : List PathVariable := t.segments.filterMap PathSegment.binding?

/-- The verb as it is written behind the path. -/
def verbText : Option String → String
  | none => ""
  | some verb => ":" ++ verb

/-- The template as it is written: a slash before each segment, a colon before the verb. -/
def text (t : PathTemplate) : String :=
  String.join (t.segments.map fun s => "/" ++ s.text) ++ verbText t.verb

/-- What is wrong with a text that is no template. -/
inductive Fault where
  | noLeadingSlash
  | unbalancedBrace
  | unterminatedVariable
  | invalidVerb (verb : String)
  | emptySegment
  | malformedSegment (piece : String)
  | malformedVariable (piece : String)
  | invalidFieldPath (piece : String)
  | invalidPattern (piece : String)
  deriving DecidableEq

def Fault.message : Fault → String
  | .noLeadingSlash => "must start with '/'"
  | .unbalancedBrace => "unbalanced '\x7d'"
  | .unterminatedVariable => "unterminated variable"
  | .invalidVerb verb => "invalid verb " ++ Text.quoted verb
  | .emptySegment => "empty segment"
  | .malformedSegment piece => "malformed segment " ++ Text.quoted piece
  | .malformedVariable piece => "malformed variable " ++ Text.quoted piece
  | .invalidFieldPath piece => "invalid field path in " ++ Text.quoted piece
  | .invalidPattern piece => "invalid variable pattern in " ++ Text.quoted piece

/-- A rejected template text and its fault. -/
structure Error where
  template : String
  fault : Fault
  deriving DecidableEq

def Error.message (e : Error) : String :=
  "Invalid path template " ++ Text.quoted e.template ++ ": " ++ e.fault.message

end PathTemplate

end ApiModel
