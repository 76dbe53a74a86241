import ApiModel.Artifacts
import ApiModel.Build
import ApiModel.CommandLine
import ApiModel.Specification

/-!
# The program

The commands as scripts.  A command loads a configuration, whose files lie beside it, builds the model
and describes it or writes its artifacts.  `Program.answer` answers a command line with an exit code and,
if a command fails, a report of the failure and its cause.
-/

namespace ApiModel

/-- What a command was doing when it failed, and why it failed. -/
structure Failure where
  context : String
  cause : String
  deriving DecidableEq

/-- The report of a failure; the lines of the cause are indented. -/
def Failure.report (f : Failure) : String :=
  let cause := (Text.pieces (· == '\n') f.cause.toList).map ("    ".toList ++ ·)
  "Error: " ++ f.context ++ "\n\nCaused by:\n" ++
    String.ofList (List.intercalate ['\n'] cause) ++ "\n"

/-- How a run of the program ends. -/
structure Ending where
  code : Nat
  report : Option String := none
  deriving DecidableEq

/-- Why a configuration file gives no configuration. -/
inductive ConfigError where
  | unreadable (path : String) (e : FileError)
  | malformed (path : String)
  deriving DecidableEq

def ConfigError.message : ConfigError → String
  | .unreadable path e =>
    s!"Parse error: Failed to read config file {PathName.quoted path}: {e.message}"
  | .malformed path =>
    s!"Parse error: Failed to parse config YAML from {PathName.quoted path}: YAML error: no configuration"

namespace Config

/-- Reads the configuration in a file. -/
def load (path : String) : Script (Except ConfigError Config) := do
  match ← Script.readText path with
  | .error e => return .error (.unreadable path e)
  | .ok text => return (ofYaml? text).elim (.error (.malformed path)) .ok

/-- A path in a configuration file, which starts from the file's directory. -/
def besideFile (file path : String) : String :=
  match PathName.parent? file with
  | some directory => PathName.join directory path
  | none => path

/-- The configuration with its paths made usable; a specification that is given takes the place of
the configured one. -/
def locate (c : Config) (file : String) (spec : Option String) : Config :=
  { c with
    source := spec.getD (besideFile file c.source)
    serviceConfig := c.serviceConfig.map (besideFile file) }

end Config

namespace Program

/-- A script that may fail. -/
abbrev Task := ExceptT Failure Script

/-- A step whose failure is reported in a context. -/
def within {ε α : Type} (context : String) (message : ε → String) (step : Script (Except ε α)) :
    Task α :=
  ExceptT.mk (step.andThen fun answer =>
    .done (answer.mapError fun e => { context, cause := message e }))

def say (line : String) : Task Unit := ExceptT.lift (Script.printLine line)

/-- Loads a configuration file. -/
def loadConfig (file : String) (spec : Option String) : Task Config := do
  let config ← within s!"Failed to load config {file}" ConfigError.message (Config.load file)
  return config.locate file spec

/-- Loads the specification and builds the model. -/
def buildModel (c : Config) : Task Api := do
  say s!"→ Parsing {c.source} ({c.format})"
  let specification ←
    within "Failed to load specification" SpecificationError.message (Specification.load c)
  let message : BuildError SpecificationError → String
    | .source e => e.message
    | .defect d => d.message
  within "Failed to build model" message (.done (createModel c specification.toApi))

/-! ## Descriptions -/

/-- The words for a method's traits. -/
def traitWords (t : Traits) : List String :=
  [(t.isStandard, "standard"), (t.isList, "list"), (t.isLro, "lro"), (t.isStreaming, "streaming")]
    |>.filterMap fun (holds, word) => if holds then some word else none

def describeBinding (b : PathBinding) : List String :=
  s!"      {b.verb} {b.path.text}" ::
    (b.target.elim [] fun t => [s!"        resource: {t.template}"])

def describeMethod (m : Method) : List String :=
  let traits := ", ".intercalate (traitWords m.traits)
  s!"    {m.name} [{traits}]" :: m.pathInfo.bindings.flatMap describeBinding

def describeService (api : Api) (verbose : Bool) (s : Service) : List String :=
  let count := s.methods.length
  ["", s!"  • {s.name} ({count} methods)"] ++
    if verbose then (api.methodsOf s).flatMap describeMethod else []

/-- The lines that describe a model. -/
def describe (api : Api) (verbose : Bool) : List String :=
  let count (ids : List String) : String := toString ids.length
  ["", "✓ Model built!", "", "API:", "  Name: " ++ api.name, "  Title: " ++ api.title,
    "  Package: " ++ api.package, "  Services: " ++ count api.services,
    "  Messages: " ++ count api.messages, "  Enums: " ++ count api.enums] ++
    (api.services.filterMap api.service?).flatMap (describeService api verbose)

/-! ## Commands -/

def parse (config : String) (spec : Option String) (verbose : Bool) : Task Unit := do
  let api ← buildModel (← loadConfig config spec)
  (describe api verbose).forM say

def generate (config : String) (spec : Option String) (output : String) (verbose : Bool) :
    Task Unit := do
  let c ← loadConfig config spec
  if verbose then
    say ("  Format: " ++ c.format)
    say ("  Source: " ++ c.source)
    say ("  Output: " ++ output)
  let api ← buildModel c
  let count := api.services.length
  say s!"✓ Built model {api.name} with {count} services"
  say "→ Generating files..."
  let written ← within "Failed to generate artifacts" GenerationError.message
    (ApiModel.generate api.view output)
  ["", "✓ Generation complete!", "", "Generated files:"].forM say
  written.forM fun path => say s!"  📄 {output}/{path}"

def runCommand (verbose : Bool) : Command → Task Unit
  | .parse config spec => parse config spec verbose
  | .generate config spec output => generate config spec output verbose

/-- The program's name and version. -/
def versionLine : String := "apigen 0.4.1"

def helpLines : List String := [
  "Usage: apigen [-v] parse -c CONFIG [-s SPEC]",
  "       apigen [-v] generate -c CONFIG [-s SPEC] [-o OUTPUT]"]

/-- Answers a command line. -/
def answer (args : List String) : Script Ending := do
  match CommandLine.read args with
  | none => return { code := 2 }
  | some .version => do
    Script.printLine versionLine
    return { code := 0 }
  | some .help => do
    helpLines.forM Script.printLine
    return { code := 0 }
  | some (.run command verbose) =>
    match ← (runCommand verbose command).run with
    | .ok () => return { code := 0 }
    | .error f => return { code := 1, report := some f.report }

end Program

end ApiModel
