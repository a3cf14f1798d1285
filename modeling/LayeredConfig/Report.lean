import LayeredConfig.Registry
import LayeredConfig.Value.Listing

/-!
# Reports

What is shown of a registry: every option with its value, one option with its
help, the sections of the files in force, or a dump of everything as events. The
value of a secret option is never shown, only whether it has one.

A report reads values in a given order through whatever way of reading it is
handed (`ReadsIn`), and stops at the first value that cannot be read. The dump
goes on and shows the error instead.
-/

namespace LayeredConfig

/-- What can be asked for. -/
inductive Action where
  | list
  | get (key : String)
  | sections
deriving DecidableEq, Repr

inductive Report where
  /-- One option, its value as shown, and its help. -/
  | option (key value : String) (help : Option String)
  | listing (entries : List (String × String))
  | sections (names : List String)
deriving DecidableEq

/-- A way to read the value of an option. -/
abbrev ReadsIn (m : Type → Type) : Type :=
  String → Option String → m (Except ConfigError (Option Value))

namespace Report

/-- The report as it is printed. -/
def text : Report → String
  | option key value help =>
    let line := key ++ " = " ++ value
    match help with
    | some help => "# " ++ help ++ "\n" ++ line
    | none => line
  | listing entries => "\n".intercalate (entries.map fun (key, value) => key ++ " = " ++ value)
  | sections names => "\n".intercalate names

/-- The name of an option in reports. -/
def key (dest : String) (group : Option String) : String :=
  match group with
  | some group => group ++ "." ++ dest
  | none => dest

/-- A value as it is shown. -/
def shown (isSecret : Bool) : Option Value → String
  | none => "<not set>"
  | some value => if isSecret then "****" else value.listed

variable {m : Type → Type} [Monad m]

/-- The entries of a listing. -/
def entries (read : ReadsIn m) :
    List (Option String × Entry) → m (Except ConfigError (List (String × String)))
  | [] => pure (.ok [])
  | (group, entry) :: rest => do
    match ← read entry.schema.dest group with
    | .error e => pure (.error e)
    | .ok value => do
      let line := (key entry.schema.dest group, shown entry.schema.secret value)
      return (line :: ·) <$> (← entries read rest)

/-- The option that a key names: up to the first dot the name of a group, if there is such a
group, and after it a dest; otherwise all of it is a dest. -/
def place (r : Registry) (key : String) : String × Option String :=
  match Text.cutFirst (· = '.') key.toList with
  | some (before, after) =>
    let group := String.ofList before
    if r.groups.contains group then (String.ofList after, some group) else (key, none)
  | none => (key, none)

/-- Answer an action on a registry. -/
def make (read : ReadsIn m) (r : Registry) : Action → m (Except ConfigError Report)
  | .list => return listing <$> (← entries read r.all)
  | .sections => return .ok (sections r.sectionNames)
  | .get key => do
    let (dest, group) := place r key
    match r.entry? dest group with
    | .error e => return .error e
    | .ok entry =>
      return (fun value => option key (shown entry.schema.secret value) entry.schema.help) <$>
        (← read dest group)

/-- Pad a text with blanks to a width. -/
def padded (width : Nat) (text : String) : String :=
  text ++ String.ofList (List.replicate (width - text.length) ' ')

/-- The lines of a dump, one for each option. -/
def dumpLines (read : ReadsIn m) : List (Option String × Entry) → m (List String)
  | [] => pure []
  | (group, entry) :: rest => do
    let value := match ← read entry.schema.dest group with
      | .ok value => shown entry.schema.secret value
      | .error e => "<error: " ++ e.message ++ ">"
    let line := padded 30 (key entry.schema.dest group) ++ " = " ++ value
    return line :: (← dumpLines read rest)

def rule (c : Char) : String :=
  String.ofList (List.replicate 80 c)

/-- All options with their values, between rules, as events of a level. -/
def dump (read : ReadsIn m) (r : Registry) (level : Level) : m (List Event) := do
  let head := [rule '*', "Configuration options gathered from:",
    "config files: " ++ Text.quotedPaths r.files, rule '=']
  return (head ++ (← dumpLines read r.all) ++ [rule '*']).map fun line => { level, message := line }

/-- The options of a group that have a value, each under its dest. -/
def tableOf (read : ReadsIn m) (group : String) (table : Table Value) :
    List String → m (Except ConfigError (Table Value))
  | [] => pure (.ok table)
  | dest :: rest => do
    match ← read dest (some group) with
    | .error e => pure (.error e)
    | .ok none => tableOf read group table rest
    | .ok (some value) => tableOf read group (table.insert dest value) rest

end Report

end LayeredConfig
