import ApiModel.Text.Piece

/-!
# Command lines

A command line names a command and its options.  An option is written in full or as one letter; its
value follows as the next argument, behind an equals sign, or at once behind the letter.  Letters
without a value can be written together.

`CommandLine.read` refuses a command line with an option that is unknown, repeated or lacks a value,
with a stray argument, and without a command or its configuration.
-/

namespace ApiModel

/-- What the program is asked for. -/
inductive Command where
  /-- Builds the model and describes it. -/
  | parse (config : String) (spec : Option String)
  /-- Builds the model and writes its artifacts. -/
  | generate (config : String) (spec : Option String) (output : String)
  deriving DecidableEq

/-- A request that was understood. -/
inductive Request where
  | version
  | help
  | run (command : Command) (verbose : Bool)
  deriving DecidableEq

namespace CommandLine

/-- The options. -/
inductive Flag where
  | verbose | version | help | config | spec | output
  deriving DecidableEq

namespace Flag

/-- The option's full name and its letter. -/
def names : Flag → String × Char
  | .verbose => ("verbose", 'v')
  | .version => ("version", 'V')
  | .help => ("help", 'h')
  | .config => ("config", 'c')
  | .spec => ("spec", 's')
  | .output => ("output", 'o')

def takesValue : Flag → Bool
  | .config => true
  | .spec => true
  | .output => true
  | _ => false

end Flag

/-- The options that may stand ahead of the command. -/
def ahead : List Flag := [.verbose, .version, .help]

/-- An option as it is given. -/
structure Given where
  flag : Flag
  value : String := ""
  deriving DecidableEq

/-- The options with the full name. -/
def named? (known : List Flag) (name : String) : Option Flag := known.find? (·.names.1 == name)

/-- The option with the letter. -/
def lettered? (known : List Flag) (letter : Char) : Option Flag := known.find? (·.names.2 == letter)

/-- The argument can be the value of the option before it. -/
def isValue (arg : String) : Bool := arg == "-" || (!arg.isEmpty && arg.toList.head? != some '-')

/-- The value behind an option: inside the same argument, or the next one. -/
def valueOf (attached : Option (List Char)) (rest : List String) :
    Option (String × List String) :=
  match attached, rest with
  | some cs, _ => if cs.isEmpty then none else some (String.ofList cs, rest)
  | none, arg :: rest => if isValue arg then some (arg, rest) else none
  | none, [] => none

/-- The options of an argument behind one dash. -/
def letters (known : List Flag) (rest : List String) :
    List Char → Option (List Given × List String)
  | [] => some ([], rest)
  | c :: cs => do
    let flag ← lettered? known c
    if flag.takesValue then
      let attached := match cs with
        | [] => none
        | '=' :: value => some value
        | value => some value
      let (value, rest) ← valueOf attached rest
      return ([{ flag, value }], rest)
    else if flag = .version ∨ flag = .help then return ([{ flag }], rest)
    else
      let (more, rest) ← letters known rest cs
      return ({ flag } :: more, rest)

/-- The option of an argument behind two dashes. -/
def fullOption (known : List Flag) (rest : List String) (cs : List Char) :
    Option (List Given × List String) := do
  let (name, attached) := match Text.cutFirst '=' cs with
    | some (name, value) => (name, some value)
    | none => (cs, none)
  let flag ← named? known (String.ofList name)
  if flag.takesValue then
    let (value, rest) ← valueOf attached rest
    return ([{ flag, value }], rest)
  else if attached.isSome then none
  else return ([{ flag }], rest)

/-- Reads options up to the first other argument; each round reads one argument.  Asking for the
version or for help ends the reading. -/
def optionsUpTo (known : List Flag) : (rounds : Nat) → List String →
    Option (List Given × List String)
  | 0, args => some ([], args)
  | _, [] => some ([], [])
  | rounds + 1, arg :: rest => do
    let read? ← match arg.toList with
      | '-' :: '-' :: [] => some none
      | '-' :: '-' :: cs => (fullOption known rest cs).map some
      | '-' :: c :: cs => (letters known rest (c :: cs)).map some
      | _ => some none
    match read? with
    | none => return ([], arg :: rest)
    | some (found, rest) =>
      if found.any fun g => g.flag = .version ∨ g.flag = .help then return (found, rest)
      let (more, rest) ← optionsUpTo known rounds rest
      return (found ++ more, rest)

/-- The options at the front of a command line, each given at most once, and what follows them. -/
def options (known : List Flag) (args : List String) : Option (List Given × List String) := do
  let (found, rest) ← optionsUpTo known args.length args
  guard (known.all fun flag => (found.filter (·.flag == flag)).length ≤ 1)
  return (found, rest)

/-- The value of an option. -/
def value? (found : List Given) (flag : Flag) : Option String :=
  (found.find? (·.flag == flag)).map (·.value)

def isGiven (found : List Given) (flag : Flag) : Bool := found.any (·.flag == flag)

/-- Where artifacts go if no directory is given. -/
def defaultOutput : String := "./output"

/-- The options of a command. -/
def optionsOf? : String → Option (List Flag)
  | "parse" => some [.verbose, .help, .config, .spec]
  | "generate" => some [.verbose, .help, .config, .spec, .output]
  | _ => none

/-- The command with a name and options. -/
def command? (name : String) (found : List Given) : Option Command := do
  let config ← value? found .config
  let spec := value? found .spec
  match name with
  | "parse" => return .parse config spec
  | "generate" => return .generate config spec ((value? found .output).getD defaultOutput)
  | _ => none

/-- Reads a command line without the program's own name. -/
def read (args : List String) : Option Request := do
  let (first, rest) ← options ahead args
  if isGiven first .version then return .version
  if isGiven first .help then return .help
  match rest with
  | [] => none
  | name :: rest =>
    if name = "help" then
      guard (rest.all fun topic => topic == "help" || (optionsOf? topic).isSome)
      guard (rest.length ≤ 1)
      return .help
    let (found, rest) ← options (← optionsOf? name) rest
    if isGiven found .help then return .help
    guard (rest.isEmpty || rest == ["--"])
    return .run (← command? name found) (isGiven first .verbose || isGiven found .verbose)

end CommandLine

end ApiModel
