import ApiModel.Yaml.Token

/-!
# Nodes of a YAML text

The document that a text holds: a tree of scalars, sequences and mappings, in which an alias stands
for a node with an anchor.  A node that is left out is an empty plain scalar.

A text with more than one document, with an alias whose anchor has not come yet, or with a tag handle
that is not declared is no document.
-/

namespace ApiModel.Yaml

/-- A node of a document. -/
inductive Node where
  | scalar (plain : Bool) (tag : Option String) (text : String)
  | sequence (items : List Node)
  | mapping (entries : List (Node × Node))
  /-- The node of the anchor with a number. -/
  | alias (number : Nat)

namespace Node

/-- A node that is left out. -/
def empty : Node := .scalar true none ""

end Node

/-- The anchors of a document.  An anchor's number is the count of the names before it; of the nodes
with one number the last to begin counts. -/
structure Anchors where
  /-- The numbers of the names. -/
  numbers : List (String × Nat) := []
  /-- For each number the node that began last, by its place among the anchored nodes. -/
  places : List (Nat × Nat) := []
  /-- The nodes that are complete, by their places. -/
  nodes : List (Nat × Node) := []
  /-- How many anchored nodes began. -/
  count : Nat := 0

namespace Anchors

/-- A node with an anchor begins. -/
def start (a : Anchors) (name : String) : Anchors :=
  let number := a.numbers.length
  { a with
    numbers := (name, number) :: a.numbers.filter (·.1 != name)
    places := (number, a.count) :: a.places
    count := a.count + 1 }

/-- The node that began at a place is complete. -/
def finish (a : Anchors) (place : Nat) (n : Node) : Anchors :=
  { a with nodes := (place, n) :: a.nodes }

/-- The node of the anchor with a number. -/
def get? (a : Anchors) (number : Nat) : Option Node := do
  a.nodes.lookup (← a.places.lookup number)

end Anchors

/-- How far a text's tokens are read. -/
structure Progress where
  tokens : List Token
  /-- The tags that handles stand for. -/
  handles : List (String × String) := []
  anchors : Anchors := {}

abbrev Reader := StateT Progress Option

namespace Reader

def peek : Reader (Option Token) := do return (← get).tokens.head?

def skip : Reader Unit := modify fun p => { p with tokens := p.tokens.drop 1 }

/-- The next token is one of the given ones. -/
def atAny (ts : List Token) : Reader Bool := do return (← peek).any ts.contains

/-- Skips the next token if it is the given one. -/
def accept (t : Token) : Reader Bool := do
  if (← peek) == some t then do skip; return true
  else return false

/-! ## Properties -/

def anchor? : Reader (Option String) := do
  match ← peek with
  | some (.anchor name) => do skip; return some name
  | _ => return none

/-- The tag of the next node, its handle resolved. -/
def tag? : Reader (Option String) := do
  match ← peek with
  | some (.tag handle suffix) => do
    skip
    if handle.isEmpty then return some suffix
    match (← get).handles.lookup handle with
    | some tag => return some (tag ++ suffix)
    | none => failure
  | _ => return none

/-- The anchor and the tag of the next node, in either order. -/
def properties : Reader (Option String × Option String) := do
  match ← anchor? with
  | some name => return (some name, ← tag?)
  | none => do
    let tag ← tag?
    if tag.isSome then return (← anchor?, tag) else return (none, none)

/-- The tag of a scalar; the tag `!` says nothing. -/
def scalarTag (tag : Option String) : Option String := tag.filter (· != "!")

/-- The node of an alias. -/
def aliasNode (name : String) : Reader Node := do
  match (← get).anchors.numbers.lookup name with
  | some number => return .alias number
  | none => failure

/-- Reads a node with an anchor, which aliases inside it may name. -/
def anchored (name : Option String) (content : Reader Node) : Reader Node := do
  match name with
  | none => content
  | some name => do
    let place := (← get).anchors.count
    modify fun p => { p with anchors := p.anchors.start name }
    let n ← content
    modify fun p => { p with anchors := p.anchors.finish place n }
    return n

/-! ## Collections -/

mutual

/-- Reads a node.  Block collections begin only where `block` holds; an entry of a sequence that is
not indented begins one where `unindented` holds. -/
def node : (depth : Nat) → (block unindented : Bool) → Reader Node
  | 0, _, _ => failure
  | depth + 1, block, unindented => do
    match ← peek with
    | some (.alias name) => do skip; aliasNode name
    | _ => do
      let (name, tag) ← properties
      anchored name (content depth block unindented (name.isSome || tag.isSome) tag)

/-- Reads what follows the properties of a node. -/
def content : (depth : Nat) → (block unindented hasProperties : Bool) → (tag : Option String) →
    Reader Node
  | 0, _, _, _, _ => failure
  | depth + 1, block, unindented, hasProperties, tag => do
    match ← peek with
    | some (.scalar plain text) => do skip; return .scalar plain (scalarTag tag) text
    | some .flowSequenceStart => do skip; return .sequence (← flowItems depth true)
    | some .flowMappingStart => do skip; return .mapping (← flowEntries depth true)
    | some .blockEntry =>
      if unindented then return .sequence (← unindentedItems depth) else omitted hasProperties tag
    | some .blockSequenceStart =>
      if block then do skip; return .sequence (← blockItems depth) else omitted hasProperties tag
    | some .blockMappingStart =>
      if block then do skip; return .mapping (← blockEntries depth) else omitted hasProperties tag
    | _ => omitted hasProperties tag

/-- A node without content has a property. -/
def omitted (hasProperties : Bool) (tag : Option String) : Reader Node := do
  if hasProperties then return .scalar true tag "" else failure

/-- Reads a node unless one of the given tokens is next. -/
def nodeUnless : (depth : Nat) → (stops : List Token) → (block unindented : Bool) → Reader Node
  | 0, _, _, _ => failure
  | depth + 1, stops, block, unindented => do
    if ← atAny stops then return .empty else node depth block unindented

/-- Reads the entries of a block sequence up to its end. -/
def blockItems : (depth : Nat) → Reader (List Node)
  | 0 => failure
  | depth + 1 => do
    if ← accept .blockEnd then return []
    guard (← accept .blockEntry)
    let n ← nodeUnless depth [.blockEntry, .blockEnd] true false
    return n :: (← blockItems depth)

/-- Reads the entries of a sequence that is not indented. -/
def unindentedItems : (depth : Nat) → Reader (List Node)
  | 0 => failure
  | depth + 1 => do
    if ← accept .blockEntry then do
      let n ← nodeUnless depth [.blockEntry, .key, .value, .blockEnd] true false
      return n :: (← unindentedItems depth)
    else return []

/-- Reads the entries of a block mapping up to its end. -/
def blockEntries : (depth : Nat) → Reader (List (Node × Node))
  | 0 => failure
  | depth + 1 => do
    if ← accept .blockEnd then return []
    guard (← accept .key)
    let stops := [.key, .value, .blockEnd]
    let k ← nodeUnless depth stops true true
    let v ← if ← accept .value then nodeUnless depth stops true true else pure .empty
    return (k, v) :: (← blockEntries depth)

/-- Reads the items of a flow sequence up to its end; an item may be a single entry of a mapping. -/
def flowItems : (depth : Nat) → (first : Bool) → Reader (List Node)
  | 0, _ => failure
  | depth + 1, first => do
    if ← accept .flowSequenceEnd then return []
    if !first then guard (← accept .flowEntry)
    if ← accept .flowSequenceEnd then return []
    let n ← if ← accept .key then flowPair depth else node depth false false
    return n :: (← flowItems depth false)

/-- Reads a single entry of a mapping; where its key is left out, the next token is skipped. -/
def flowPair : (depth : Nat) → Reader Node
  | 0 => failure
  | depth + 1 => do
    let stops := [.flowEntry, .flowSequenceEnd]
    let k ← if ← atAny (.value :: stops) then do skip; pure .empty else node depth false false
    let v ← if ← accept .value then nodeUnless depth stops false false else pure .empty
    return .mapping [(k, v)]

/-- Reads the entries of a flow mapping up to its end. -/
def flowEntries : (depth : Nat) → (first : Bool) → Reader (List (Node × Node))
  | 0, _ => failure
  | depth + 1, first => do
    if ← accept .flowMappingEnd then return []
    if !first then guard (← accept .flowEntry)
    if ← accept .flowMappingEnd then return []
    let stops := [.flowEntry, .flowMappingEnd]
    if ← accept .key then do
      let k ← nodeUnless depth (.value :: stops) false false
      let v ← if ← accept .value then nodeUnless depth stops false false else pure .empty
      return (k, v) :: (← flowEntries depth false)
    else do
      let k ← node depth false false
      return (k, .empty) :: (← flowEntries depth false)

end

/-! ## Documents -/

/-- The tag handles that need no directive. -/
def plainHandles : List (String × String) := [("!", "!"), ("!!", "tag:yaml.org,2002:")]

/-- Reads the directives of a document, each at most once. -/
def directives : (rounds : Nat) → (versioned : Bool) → (handles : List (String × String)) →
    Reader (List (String × String))
  | 0, _, _ => failure
  | rounds + 1, versioned, handles => do
    match ← peek with
    | some (.versionDirective major minor) => do
      skip
      guard (!versioned && major == 1 && (minor == 1 || minor == 2))
      directives rounds true handles
    | some (.tagDirective handle tag) => do
      skip
      guard (handles.lookup handle).isNone
      directives rounds versioned (handles ++ [(handle, tag)])
    | _ => return handles

/-- Skips the ends of documents. -/
def documentEnds : Reader Unit :=
  modify fun p => { p with tokens := p.tokens.dropWhile (· == .documentEnd) }

/-- The next token begins or ends a document, or there is none. -/
def atBoundary : Reader Bool := do
  match ← peek with
  | none => return true
  | some (.versionDirective _ _) => return true
  | some (.tagDirective _ _) => return true
  | some t => return t == .documentStart || t == .documentEnd

/-- Reads the only document, if there is one. -/
def document : Reader (Option Node) := do
  let depth := 4 * (← get).tokens.length + 4
  if (← peek).isNone then return none
  let bare := !(← atBoundary) || (← peek) == some .documentEnd
  let handles ← directives depth false []
  modify fun p => { p with handles := handles ++ plainHandles }
  let root ←
    if bare then node depth true false
    else do
      guard (← accept .documentStart)
      if ← atBoundary then pure .empty else node depth true false
  documentEnds
  guard (← peek).isNone
  return some root

end Reader

/-- A document and its anchors. -/
structure Document where
  root : Option Node
  anchors : Anchors := {}

/-- The document that a text holds; none of a text without content. -/
def Document.ofText? (s : String) : Option Document := do
  let tokens ← tokens? s
  let (root, progress) ← Reader.document.run { tokens }
  return { root, anchors := progress.anchors }

end ApiModel.Yaml
