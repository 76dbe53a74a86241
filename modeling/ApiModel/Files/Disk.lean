import ApiModel.Files.Script
import ApiModel.IdMap

/-!
# Disks

A disk is a tree of directories and files with a working directory, on which scripts run.  A path is
walked name by name, and every name but the last has to be a directory.

Principal statement: `run_andThen` — a script that goes on runs in two parts.
-/

namespace ApiModel

open ApiModel.Wire

/-- What stands at a place of a disk. -/
inductive DiskNode where
  | directory
  | file (content : Bytes)
  deriving DecidableEq

/-- A place by the names on the way from the root. -/
abbrev Place := List String

/-- A tree of directories and files; the root is always a directory. -/
structure Disk where
  /-- The nodes by their absolute paths. -/
  nodes : IdMap DiskNode := ∅
  workingDirectory : Place := []

namespace Disk

/-- The absolute path of a place. -/
def pathOf (place : Place) : String := String.join (place.map ("/" ++ ·))

/-- What stands at a place. -/
def node? (d : Disk) (place : Place) : Option DiskNode :=
  if place.isEmpty then some .directory else d.nodes.get? (pathOf place)

def put (d : Disk) (place : Place) (n : DiskNode) : Disk :=
  { d with nodes := d.nodes.insert (pathOf place) n }

/-- The place of a name in a directory. -/
def enter (d : Disk) (place : Place) (name : String) : Except FileError Place :=
  match d.node? place with
  | none => .error .notFound
  | some (.file _) => .error .notADirectory
  | some .directory =>
    if name = "." then .ok place
    else if name = ".." then .ok place.dropLast
    else if 255 < name.utf8ByteSize then .error .nameTooLong
    else .ok (place ++ [name])

/-- The names of a path. -/
def namesOf (path : String) : List String :=
  ((Text.pieces (· == '/') path.toList).filter (!·.isEmpty)).map String.ofList

/-- The path may be given to an action. -/
def checkPath (path : String) : Except FileError Unit :=
  if path.toList.contains '\x00' then .error .nameWithNul
  else if path.isEmpty then .error .notFound
  else if 4096 ≤ path.utf8ByteSize then .error .nameTooLong
  else .ok ()

/-- The place where the names of a path lead. -/
def follow (d : Disk) (path : String) (names : List String) : Except FileError Place :=
  names.foldlM d.enter (if PathName.isAbsolute path then [] else d.workingDirectory)

/-- The place of a path. -/
def locate (d : Disk) (path : String) : Except FileError Place := do
  checkPath path
  d.follow path (namesOf path)

/-- The path asks for a directory. -/
def endsInSlash (path : String) : Bool := path.toList.getLast? == some '/'

def readFile (d : Disk) (path : String) : Except FileError Bytes := do
  match d.node? (← d.locate path) with
  | none => .error .notFound
  | some .directory => .error .isADirectory
  | some (.file content) => if endsInSlash path then .error .notADirectory else .ok content

def writeFile (d : Disk) (path text : String) : Except FileError Disk := do
  let place ← d.locate path
  if d.node? place = some .directory ∨ endsInSlash path then .error .isADirectory
  else .ok (d.put place (.file text.toUTF8.toList))

def makeDirectory (d : Disk) (path : String) : Except FileError Disk := do
  checkPath path
  let names := namesOf path
  let outer ← d.follow path names.dropLast
  let place ← names.getLast?.elim (.ok outer) (d.enter outer)
  if (d.node? place).isSome then .error .alreadyExists else .ok (d.put place .directory)

def isDirectory (d : Disk) (path : String) : Bool :=
  match d.locate path with
  | .ok place => d.node? place == some .directory
  | .error _ => false

/-- The files inside a directory, by their paths from there. -/
def filesIn (d : Disk) (place : Place) : List (String × Bytes) :=
  let base := pathOf place ++ "/"
  d.nodes.toList.filterMap fun (path, n) =>
    match Text.behind? base.toList path.toList, n with
    | some rest, .file content => some (String.ofList rest, content)
    | _, _ => none

/-! ## Running scripts -/

/-- What a script has done: its result, the disk and what was printed. -/
structure Run (α : Type) where
  result : α
  disk : Disk
  output : String := ""

/-- Runs a script on a disk. -/
def run {α : Type} (d : Disk) : Script α → Run α
  | .done a => { result := a, disk := d }
  | .print text next =>
    let rest := d.run next
    { rest with output := text ++ rest.output }
  | .readFile path next => d.run (next (d.readFile path))
  | .writeFile path text next =>
    match d.writeFile path text with
    | .ok d => d.run (next (.ok ()))
    | .error e => d.run (next (.error e))
  | .makeDirectory path next =>
    match d.makeDirectory path with
    | .ok d => d.run (next (.ok ()))
    | .error e => d.run (next (.error e))
  | .isDirectory path next => d.run (next (d.isDirectory path))

/-- **A script that goes on runs in two parts.** -/
theorem run_andThen {α β : Type} (d : Disk) (s : Script α) (next : α → Script β) :
    d.run (s.andThen next) =
      let first := d.run s
      let second := first.disk.run (next first.result)
      { second with output := first.output ++ second.output } := by
  induction s generalizing d with
  | done a => simp [Script.andThen, run]
  | print text rest ih => simp [Script.andThen, run, ih, String.append_assoc]
  | readFile path rest ih => simp [Script.andThen, run, ih]
  | writeFile path text rest ih =>
    simp only [Script.andThen, run]
    split <;> simp [ih]
  | makeDirectory path rest ih =>
    simp only [Script.andThen, run]
    split <;> simp [ih]
  | isDirectory path rest ih => simp [Script.andThen, run, ih]

end Disk

end ApiModel
