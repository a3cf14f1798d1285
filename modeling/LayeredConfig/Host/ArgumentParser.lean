import LayeredConfig.CommandLine

/-!
# An argument parser

A parser for the programs that are run here. Nothing else in this library rests on
how it reads a command line.

A command is described by data: whether it takes `--config-file`, which may be
repeated, whether it takes a key, and which commands may follow. `scan` reads
the arguments of a command from left to right.

The value of an option is checked only when the next option or the end of the
arguments shows that it is complete, so an argument that is refused before then
is what is complained of. Files that are given after a command replace those
before it.
-/

namespace LayeredConfig

/-- The description of a command. -/
inductive Command where
  | mk (takesFiles takesKey needsCommand : Bool) (commands : List (String × Command))

namespace Command

def takesFiles : Command → Bool
  | mk b _ _ _ => b

def takesKey : Command → Bool
  | mk _ b _ _ => b

def needsCommand : Command → Bool
  | mk _ _ b _ => b

/-- The commands that may follow. -/
def commands : Command → List (String × Command)
  | mk _ _ _ cs => cs

/-- Whether a word names a command that may follow; `help` may where any other may. -/
def names (command : Command) (word : String) : Bool :=
  !command.commands.isEmpty && (word = "help" || (command.commands.lookup word).isSome)

end Command

/-- An option that was begun. -/
inductive Pending where
  | nothing
  /-- Its value has not come. -/
  | awaiting
  | value (text : String)
deriving DecidableEq

/-- What was read of the arguments of one command. -/
structure Scan where
  files : List String := []
  key : Option String := none
  pending : Pending := .nothing
  /-- After `--` everything is a plain word. -/
  plainOnly : Bool := false

namespace Scan

/-- Complete the option that was begun. -/
def settle (scan : Scan) : Except UsageError Scan :=
  match scan.pending with
  | .nothing => .ok scan
  | .awaiting => .error .badValue
  | .value text =>
    if text = "" then .error .badValue
    else .ok { scan with files := scan.files ++ [text], pending := .nothing }

/-- Take an argument that starts with two hyphens, given without them. -/
def takeLong (scan : Scan) (command : Command) (argument : List Char) : Except UsageError Scan :=
  let (name, value) := match Text.cutFirst (· = '=') argument with
    | some (before, after) => (String.ofList before, some (String.ofList after))
    | none => (String.ofList argument, none)
  if name = "config-file" && command.takesFiles then
    scan.settle.bind fun settled =>
      match value with
      | none => .ok { settled with pending := .awaiting }
      | some text => ({ settled with pending := .value text } : Scan).settle
  else if name = "help" then
    if value.isSome then .error .needlessValue else scan.settle.bind fun _ => .error .help
  else .error .unknownArgument

/-- Take an argument that starts with one hyphen, given without it. -/
def takeShort (scan : Scan) (argument : List Char) : Except UsageError Scan :=
  if argument.head? = some 'h' then scan.settle.bind fun _ => .error .help
  else .error .unknownArgument

/-- Take a plain word that is not the name of a command. -/
def takeWord (scan : Scan) (command : Command) (word : String) : Except UsageError Scan :=
  if command.takesKey && scan.key.isNone then
    scan.settle.map fun settled => { settled with key := some word }
  else if command.commands.isEmpty || (scan.plainOnly && command.names word) then
    .error .unknownArgument
  else .error .unknownCommand

/-- Take an argument that is not the name of a command. -/
def take (scan : Scan) (command : Command) (argument : String) : Except UsageError Scan :=
  if scan.plainOnly then scan.takeWord command argument
  else
    match argument.toList with
    | ['-', '-'] => .ok { scan with plainOnly := true }
    | '-' :: '-' :: rest => scan.takeLong command rest
    | '-' :: c :: rest => scan.takeShort (c :: rest)
    | _ =>
      if scan.pending = .awaiting then .ok { scan with pending := .value argument }
      else scan.takeWord command argument

/-- The arguments of a command are at their end. -/
def finish (scan : Scan) (command : Command) : Except UsageError Scan :=
  scan.settle.bind fun settled =>
    if command.needsCommand then .error .missingCommand
    else if command.takesKey && settled.key.isNone then .error .missingArgument
    else .ok settled

end Scan

/-- A command line that was read. -/
structure Invocation where
  /-- The commands named, the outermost first. -/
  path : List String
  files : List String
  key : Option String
deriving DecidableEq

namespace Command

/-- Show the help of a command that is reached by names. -/
def helpOn : List (String × Command) → List String → UsageError
  | _, [] => .help
  | commands, word :: rest =>
    if word = "help" && !commands.isEmpty then helpOn [] rest
    else
      match commands.lookup word with
      | some command => helpOn command.commands rest
      | none => .unknownCommand

/-- Read the arguments of a command, after what was read of them so far. -/
def scan (command : Command) (sofar : Scan) : List String → Except UsageError Invocation
  | [] => (sofar.finish command).map fun done => ⟨[], done.files, done.key⟩
  | argument :: rest =>
    if sofar.plainOnly || sofar.pending = .awaiting || !command.names argument then
      match sofar.take command argument with
      | .error e => .error e
      | .ok next => command.scan next rest
    else
      match command.commands.lookup argument with
      | none => .error (helpOn command.commands rest)
      | some inner =>
        match inner.scan {} rest with
        | .error e => .error e
        | .ok invocation =>
          sofar.settle.map fun settled =>
            { invocation with
              path := argument :: invocation.path
              files := if invocation.files = [] then settled.files else invocation.files }

/-- The commands on a configuration: `list`, which is also what no command means, `get` and
`sections`. -/
def config : Command :=
  mk true false false
    [("list", mk true false false []), ("get", mk true true false []),
      ("sections", mk true false false [])]

end Command

/-- What was found for the commands on a configuration. -/
def Invocation.arguments (path files : List String) (key : Option String) : Arguments where
  files := files
  command :=
    match path, key with
    | ["list"], _ => some .list
    | ["get"], some key => some (.get key)
    | ["sections"], _ => some .sections
    | _, _ => none

/-- Read the arguments of the commands on a configuration. -/
def parseArguments (arguments : List String) : Except UsageError (List String × Action) :=
  (Command.config.scan {} arguments).map fun i =>
    let found := Invocation.arguments i.path i.files i.key
    (found.files, found.action)

end LayeredConfig
