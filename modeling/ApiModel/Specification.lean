import ApiModel.ConfigFile
import ApiModel.Descriptor.Reader
import ApiModel.Files.Script
import ApiModel.Schema.Model
import ApiModel.Schema.WrittenOption
import ApiModel.ServiceConfig

/-!
# Specifications

Where a raw model comes from: a descriptor set, the package to model and a service configuration.  A
configuration names the format and the files; the format is looked at first, then the specification,
then the service configuration.
-/

namespace ApiModel

open ApiModel.Wire

/-- The formats that can be read. -/
inductive SpecificationFormat where
  | protobuf
  deriving DecidableEq

namespace SpecificationFormat

def name : SpecificationFormat → String
  | .protobuf => "protobuf"

def ofName? (s : String) : Option SpecificationFormat := if s = "protobuf" then some .protobuf else none

end SpecificationFormat

/-- Why bytes are no schema. -/
inductive DescriptorError where
  | malformed
  | unfit (e : SchemaError)
  deriving DecidableEq

def DescriptorError.message : DescriptorError → String
  | .malformed => "failed to decode file descriptor set"
  | .unfit e => e.message

/-- The schema in the bytes of a descriptor set. -/
def Schema.ofBytes (s : Bytes) : Except DescriptorError Schema :=
  match readDescriptorSet s with
  | none => .error .malformed
  | some files => (Schema.ofFiles files).mapError .unfit

/-- Why a specification gives no raw model. -/
inductive SpecificationError where
  | unknownFormat (name : String)
  | unreadable (path : String) (e : FileError)
  | undecodable (e : DescriptorError)
  | unreadableServiceConfig (path : String) (e : FileError)
  | malformedServiceConfig
  | badPath (e : PathTemplate.Error)
  deriving DecidableEq

def SpecificationError.message : SpecificationError → String
  | .unknownFormat name => s!"Unknown specification format: {name}"
  | .unreadable path e =>
    s!"Parse error: Failed to read FileDescriptorSet file {path}: {e.message}"
  | .undecodable e => s!"Parse error: Failed to decode FileDescriptorSet: {e.message}"
  | .unreadableServiceConfig path e =>
    s!"Parse error: Failed to read service config {path}: {e.message}"
  | .malformedServiceConfig => "YAML error: no service configuration"
  | .badPath e => e.message

/-- What a raw model is made of. -/
structure Specification where
  schema : Schema
  /-- The package to model, if it is not the one that the files are about. -/
  package : Option String := none
  serviceConfig : Option ServiceConfig := none

namespace Specification

/-- The raw model. -/
def toApi (s : Specification) : Except SpecificationError Api := do
  let api ← (s.schema.toApi s.package).mapError .badPath
  return s.serviceConfig.elim api (·.apply api)

/-- The service configuration in a text. -/
def readServiceConfig (text : String) : Except SpecificationError ServiceConfig :=
  (ServiceConfig.ofYaml? text).elim (.error .malformedServiceConfig) .ok

/-- The specification in the bytes of a descriptor set and the text of a service configuration. -/
def ofFiles (bytes : Bytes) (package serviceConfig : Option String) :
    Except SpecificationError Specification := do
  let schema ← (Schema.ofBytes bytes).mapError .undecodable
  return { schema, package, serviceConfig := ← serviceConfig.mapM readServiceConfig }

/-- Reads the service configuration in a file. -/
def loadServiceConfig (path : String) : Script (Except SpecificationError ServiceConfig) := do
  match ← Script.readText path with
  | .error e => return .error (.unreadableServiceConfig path e)
  | .ok text => return readServiceConfig text

/-- Reads the descriptor set in a file. -/
def loadSchema (path : String) : Script (Except SpecificationError Schema) :=
  .readFile path fun
    | .error e => .done (.error (.unreadable path e))
    | .ok bytes => .done ((Schema.ofBytes bytes).mapError .undecodable)

/-- Reads the specification that a configuration names. -/
def load (c : Config) : Script (Except SpecificationError Specification) := do
  match SpecificationFormat.ofName? c.format with
  | none => return .error (.unknownFormat c.format)
  | some .protobuf =>
    match ← loadSchema c.source, c.serviceConfig with
    | .error e, _ => return .error e
    | .ok schema, none => return .ok { schema }
    | .ok schema, some path =>
      return (← loadServiceConfig path).map fun serviceConfig =>
        { schema, serviceConfig := some serviceConfig }

end Specification

end ApiModel
