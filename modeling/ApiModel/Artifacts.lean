import ApiModel.ClientSource
import ApiModel.Files.Script
import ApiModel.Manifest
import ApiModel.ViewDocument

/-!
# Artifacts

The files that are generated from a model: the manifest, the client source and the view as a document.
They are written in this order, and the first that cannot be written ends the work.
-/

namespace ApiModel

/-- A file to write, by its path inside the output directory. -/
structure Artifact where
  path : String
  text : String
  deriving DecidableEq

/-- The artifacts of a model in the order in which they are written. -/
def ApiView.artifacts (v : ApiView) : List Artifact := [
  { path := "manifest.yaml", text := v.manifest },
  { path := "src/lib.rs", text := v.clientSource },
  { path := "model.json", text := v.toJson.pretty }]

/-- Why artifacts were not generated. -/
inductive GenerationError where
  | unmadeDirectory (e : FileError)
  | unwritten (path : String) (e : FileError)
  deriving DecidableEq

def GenerationError.message : GenerationError → String
  | .unmadeDirectory e => s!"Generation error: Failed to create output directory: {e.message}"
  | .unwritten path e => s!"Generation error: Failed to write {path}: {e.message}"

/-- Writes artifacts into a directory. -/
def writeArtifacts (directory : String) :
    List Artifact → Script (Except GenerationError Unit)
  | [] => .done (.ok ())
  | a :: rest => .writeFile (PathName.join directory a.path) a.text fun
    | .error e => .done (.error (.unwritten a.path e))
    | .ok () => writeArtifacts directory rest

/-- Writes all artifacts of a model into a directory; yields their paths inside it. -/
def generate (v : ApiView) (directory : String) : Script (Except GenerationError (List String)) := do
  match ← Script.makeDirectories (PathName.join directory "src") with
  | .error e => return .error (.unmadeDirectory e)
  | .ok () =>
    return (← writeArtifacts directory v.artifacts).map fun _ => v.artifacts.map (·.path)

end ApiModel
