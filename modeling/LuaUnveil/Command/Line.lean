import LuaUnveil.Command.Run
import LuaUnveil.Command.Switch

/-!
# Reading a command line

The arguments are read from left to right.  A switch and a file wait for what comes next before
they count: a switch may still need its value, and files are taken together.  So of two mistakes
the one that is found first is reported, and a mistake that waits is reported only if nothing worse
follows.

* `Reading`: the state after some of the arguments, and `Reading.settle`: let what waits count.
* `Reading.step`: one more argument.
* `Command.ofArguments`: the command that a command line asks for.
-/

namespace LuaUnveil

/-- What is wrong with a command line, or why it asks for no command. -/
inductive UsageError where
  | invalidValue | unknownArgument | invalidSubcommand | argumentConflict | tooManyValues
  /-- The user asks for help. -/
  | help
  /-- The user asks for the version. -/
  | version
  /-- There is no command at all. -/
  | missingCommand
  deriving Repr, DecidableEq

/-! ## Reading the arguments of one command -/

/-- What waits for the next argument. -/
inductive Waiting where
  | nothing
  /-- A switch that takes a value, and its value if that was given already. -/
  | value (s : Switch) (given : Option Text)
  /-- Files that follow each other. -/
  | files (paths : List Text)
  deriving Repr, DecidableEq

/-- The state after some of the arguments. -/
structure Reading where
  /-- The switches that count, with their values. -/
  given : List (Switch × Text) := []
  files : List Text := []
  verbosity : Nat := 0
  waiting : Waiting := .nothing
  /-- Whether all further arguments are files. -/
  onlyFiles : Bool := false
  deriving Repr, DecidableEq

namespace Reading

/-- The value of a switch that counts. -/
def valueOf? (reading : Reading) (s : Switch) : Option Text := reading.given.lookup s

/-- Whether a switch counts. -/
def isGiven (reading : Reading) (s : Switch) : Bool := (reading.valueOf? s).isSome

/-- Let a switch count.  No switch counts twice, and its value must be one that it takes. -/
def give (reading : Reading) (s : Switch) (value : Text) : Except UsageError Reading :=
  if reading.isGiven s then .error .argumentConflict
  else if !s.acceptsValue value then .error .invalidValue
  else .ok { reading with given := reading.given ++ [(s, value)] }

/-- Let what waits count.  A switch must have got its value, and no path may be empty. -/
def settle (reading : Reading) : Except UsageError Reading :=
  let settled := { reading with waiting := .nothing }
  match reading.waiting with
  | .nothing => .ok settled
  | .value _ none => .error .invalidValue
  | .value s (some value) => settled.give s value
  | .files paths =>
    if paths.any List.isEmpty then .error .invalidValue
    else .ok { settled with files := reading.files ++ paths }

/-- A switch without a value. -/
def flag (reading : Reading) (s : Switch) : Except UsageError Reading := do
  let reading ← reading.settle
  match s with
  | .help => .error .help
  | .version => .error .version
  | .verbose => .ok { reading with verbosity := min (reading.verbosity + 1) 255 }
  | s => reading.give s []

/-- A switch with the value that stands in the same argument. -/
def attached (reading : Reading) (s : Switch) (value : Text) : Except UsageError Reading := do
  (← reading.settle).give s value

/-- A switch whose value is the next argument. -/
def expectValue (reading : Reading) (s : Switch) : Except UsageError Reading := do
  return { ← reading.settle with waiting := .value s none }

/-- A switch in its long spelling, with a value behind an equals sign if there is one. -/
def long (form : CommandForm) (reading : Reading) (argument : Text) : Except UsageError Reading :=
  let (name, rest) := leading (· != '=') argument
  match form.ofLong? name, rest with
  | none, _ => .error .unknownArgument
  | some s, [] => if s.takesValue then reading.expectValue s else reading.flag s
  | some s, _ :: value =>
    if s.takesValue then reading.attached s value else .error .tooManyValues

/-- Switches in their short spelling, one behind the other.  The first one that takes a value takes
the rest of the argument, without an equals sign in front, if there is any rest. -/
def shorts (form : CommandForm) (reading : Reading) : Text → Except UsageError Reading
  | [] => .ok reading
  | c :: rest =>
    match form.ofShort? c with
    | none => .error .unknownArgument
    | some s =>
      if s.takesValue then
        match rest with
        | [] => reading.expectValue s
        | '=' :: value => reading.attached s value
        | value => reading.attached s value
      else do shorts form (← reading.flag s) rest

/-- A file, if the command takes any. -/
def file (form : CommandForm) (reading : Reading) (path : Text) : Except UsageError Reading :=
  if !form.takesFiles then .error .unknownArgument
  else
    match reading.waiting with
    | .files paths => .ok { reading with waiting := .files (paths ++ [path]) }
    | _ => do return { ← reading.settle with waiting := .files [path] }

/-- Read one more argument.  A double dash makes files of all that follow, and a single dash alone
is an ordinary argument. -/
def step (form : CommandForm) (reading : Reading) (argument : Text) : Except UsageError Reading :=
  if reading.onlyFiles then reading.file form argument
  else
    match argument with
    | ['-', '-'] => .ok { reading with onlyFiles := true }
    | '-' :: '-' :: body => reading.long form body
    | '-' :: c :: body => reading.shorts form (c :: body)
    | argument =>
      match reading.waiting with
      | .value s none => .ok { reading with waiting := .value s (some argument) }
      | _ => reading.file form argument

/-- Read all arguments of a command. -/
def ofArguments (form : CommandForm) (arguments : List Text) : Except UsageError Reading := do
  (← arguments.foldlM (step form) {}).settle

end Reading

/-! ## Commands -/

/-- The arguments of the command that deobfuscates scripts. -/
structure RunArguments where
  files : List Text := []
  bundled : Option Text := none
  format : Option ReportFormat := none
  output : Option Text := none
  settings : Option Text := none
  simplifyFully : Bool := false
  reportUndecoded : Bool := false
  verbosity : Nat := 0
  deriving Repr, DecidableEq

/-- The request that the arguments ask for: a bundled example before files, and the standard input
if there is neither. -/
def RunArguments.request (arguments : RunArguments) : RunRequest where
  source :=
    match arguments.bundled, arguments.files with
    | some name, _ => .bundled name
    | none, [] => .standardInput
    | none, files => .files files
  format := arguments.format
  output := arguments.output
  settings := arguments.settings
  simplifyFully := arguments.simplifyFully
  reportUndecoded := arguments.reportUndecoded

/-- Add a settings file that the environment names to a reading without one. -/
def Reading.addSettings (reading : Reading) (environment : Option Text) :
    Except UsageError Reading :=
  match environment with
  | some path => if reading.isGiven .settings then .ok reading else reading.give .settings path
  | none => .ok reading

/-- The arguments of the command that deobfuscates scripts.  An example and files exclude each
other. -/
def RunArguments.read (environment : Option Text) (arguments : List Text) :
    Except UsageError RunArguments := do
  let reading ← Reading.ofArguments .run arguments
  let reading ← reading.addSettings environment
  if reading.isGiven .bundled && !reading.files.isEmpty then .error .argumentConflict
  else
    return {
      files := reading.files
      bundled := reading.valueOf? .bundled
      format := (reading.valueOf? .format).bind ReportFormat.ofName?
      output := reading.valueOf? .output
      settings := reading.valueOf? .settings
      simplifyFully := reading.isGiven .simplifyFully
      reportUndecoded := reading.isGiven .reportUndecoded
      verbosity := reading.verbosity }

/-- The commands of the program. -/
inductive Command where
  | run (arguments : RunArguments)
  | examples
  | init (force : Bool)
  deriving Repr, DecidableEq

namespace Command

/-- The names of the commands, and the name of the help on them. -/
def names : List Text := ["run", "examples", "init", "help"].map String.toList

/-- Help on the program or on one command. -/
def helpOn : List Text → UsageError
  | [] => .help
  | [name] => if names.contains name then .help else .invalidSubcommand
  | _ => .invalidSubcommand

/-- The mistake of a command line that does not begin with the name of a command. -/
def mistake : List Text → UsageError
  | [] => .missingCommand
  | ['-', '-'] :: [] => .missingCommand
  | ['-', '-'] :: name :: _ =>
    if names.contains name then .unknownArgument else .invalidSubcommand
  | argument :: _ =>
    match Reading.step .top {} argument with
    | .error .unknownArgument =>
      if argument.head? = some '-' ∧ 1 < argument.length then .unknownArgument
      else .invalidSubcommand
    | .error error => error
    | .ok _ => .missingCommand

/-- The command that a command line asks for.  The settings file that the environment names is used
if the command line names none. -/
def ofArguments (environment : Option Text) : List Text → Except UsageError Command
  | [] => .error .missingCommand
  | name :: arguments =>
    if name = "run".toList then return run (← RunArguments.read environment arguments)
    else if name = "examples".toList then do
      let _ ← Reading.ofArguments .examples arguments
      return examples
    else if name = "init".toList then
      return init ((← Reading.ofArguments .init arguments).isGiven .force)
    else if name = "help".toList then .error (helpOn arguments)
    else .error (mistake (name :: arguments))

end Command

end LuaUnveil
