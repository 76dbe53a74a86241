import ApiModel.Files.PathName
import ApiModel.Wire

/-!
# Scripts

A script prints lines and works with files, one action after the other, each action answered before
the next is chosen.  What carries it out is not part of it.
-/

namespace ApiModel

open ApiModel.Wire

/-- Why an action on a file fails. -/
inductive FileError where
  | notFound | alreadyExists | notADirectory | isADirectory | nameTooLong | nameWithNul | notText
  | other (text : String)
  deriving DecidableEq

def FileError.message : FileError → String
  | .notFound => "No such file or directory (os error 2)"
  | .alreadyExists => "File exists (os error 17)"
  | .notADirectory => "Not a directory (os error 20)"
  | .isADirectory => "Is a directory (os error 21)"
  | .nameTooLong => "File name too long (os error 36)"
  | .nameWithNul => "file name contained an unexpected NUL byte"
  | .notText => "stream did not contain valid UTF-8"
  | .other text => text

/-- Actions on files, with a result in the end. -/
inductive Script (α : Type) where
  | done (a : α)
  | print (text : String) (next : Script α)
  | readFile (path : String) (next : Except FileError Bytes → Script α)
  | writeFile (path text : String) (next : Except FileError Unit → Script α)
  | makeDirectory (path : String) (next : Except FileError Unit → Script α)
  | isDirectory (path : String) (next : Bool → Script α)

namespace Script

variable {α β : Type}

/-- Goes on with the result of a script. -/
def andThen (next : α → Script β) : Script α → Script β
  | done a => next a
  | print text rest => print text (rest.andThen next)
  | readFile path rest => readFile path fun answer => (rest answer).andThen next
  | writeFile path text rest => writeFile path text fun answer => (rest answer).andThen next
  | makeDirectory path rest => makeDirectory path fun answer => (rest answer).andThen next
  | isDirectory path rest => isDirectory path fun answer => (rest answer).andThen next

instance : Monad Script where
  pure := done
  bind s next := s.andThen next

/-- Prints a line. -/
def printLine (line : String) : Script Unit := print (line ++ "\n") (done ())

/-- Reads a file of text. -/
def readText (path : String) : Script (Except FileError String) :=
  readFile path fun answer => done do
    let bytes ← answer
    (String.fromUTF8? ⟨bytes.toArray⟩).elim (.error .notText) .ok

/-- Makes the first of the given directories, each of which lies in the next, and those around it as
far as they are missing. -/
def makeDirectoriesIn : List String → Script (Except FileError Unit)
  | [] => done (.ok ())
  | path :: outer =>
    let accept (e : FileError) : Script (Except FileError Unit) :=
      if e = .alreadyExists then
        isDirectory path fun answer => done (if answer then .ok () else .error e)
      else done (.error e)
    makeDirectory path fun
      | .ok () => done (.ok ())
      | .error .notFound =>
        (makeDirectoriesIn outer).andThen fun
          | .error e => done (.error e)
          | .ok () => makeDirectory path fun
            | .ok () => done (.ok ())
            | .error e => accept e
      | .error e => accept e

/-- Makes a directory and those around it as far as they are missing. -/
def makeDirectories (path : String) : Script (Except FileError Unit) :=
  makeDirectoriesIn (PathName.ancestors path)

end Script

end ApiModel
