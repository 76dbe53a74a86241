import ApiModel.Program

/-!
# The command line program

Carries out the program's script on the file system.
-/

namespace ApiModel

/-- The error behind a failed action. -/
def FileError.ofIO : IO.Error → FileError
  | .noFileOrDirectory .. => .notFound
  | .alreadyExists .. => .alreadyExists
  | .inappropriateType _ code details =>
    if code = 21 then .isADirectory else if code = 20 then .notADirectory else .other details
  | e => .other (toString e)

/-- An action's result or the error behind its failure. -/
def attempt {α : Type} (action : IO α) : IO (Except FileError α) := do
  try return .ok (← action)
  catch e => return .error (.ofIO e)

/-- Carries a script out. -/
def Script.perform {α : Type} : Script α → IO α
  | .done a => return a
  | .print text next => do
    IO.print text
    next.perform
  | .readFile path next => do
    (next (← attempt do return (← IO.FS.readBinFile path).toList)).perform
  | .writeFile path text next => do (next (← attempt (IO.FS.writeFile path text))).perform
  | .makeDirectory path next => do (next (← attempt (IO.FS.createDir path))).perform
  | .isDirectory path next => do
    -- Only a directory has the entry `.`, and where it exists it cannot be made.
    let made ← attempt (IO.FS.createDir (path ++ "/."))
    (next (made matches .error .alreadyExists)).perform

end ApiModel

def main (args : List String) : IO UInt32 := do
  let ending ← (ApiModel.Program.answer args).perform
  if let some report := ending.report then IO.eprint report
  return ending.code.toUInt32
