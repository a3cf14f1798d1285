import LayeredConfig.Schema
import LayeredConfig.Snapshot

/-!
# Resolution

The value of a registered option is decided by the first of these that is there:
the value that it is locked to, the value in the files, the value that replaces
its default, its default. Values from files and defaults are converted; a locked
value is taken as it is, and a replaced default is converted only while defaults
are validated. A value that does not convert is an error and never gives way to
the next layer.
-/

namespace LayeredConfig

/-- What is known of a registered option. -/
structure Entry where
  schema : Schema
  /-- Replaces the default of the schema. -/
  override : Option Value := none
  /-- Wins over everything. -/
  locked : Option Value := none

namespace Entry

/-- The entry as it was when its option was registered. -/
def fresh (entry : Entry) : Entry :=
  { schema := entry.schema }

/-- The names under which files may assign the option, the preferred one first. -/
def names (entry : Entry) (group : Option String) : List (Option String × String) :=
  if entry.schema.name = entry.schema.dest then [(group, entry.schema.dest)]
  else [(group, entry.schema.dest), (group, entry.schema.name)]

def fileValue? (entry : Entry) (group : Option String) (snapshot : Option Snapshot) :
    Option Value :=
  snapshot.bind fun s => s.value? (entry.names group) entry.schema.multi

/-- Convert a default, or what replaces it. -/
def convertDefault (entry : Entry) (value : Value) : Except ConfigError Value :=
  match entry.schema.convert value with
  | .ok converted => .ok converted
  | .error cause => .error (.invalidDefault entry.schema.name cause)

/-- Convert a value from a file. -/
def convertFile (entry : Entry) (value : Value) : Except ConfigError Value :=
  match entry.schema.convert value with
  | .ok converted => .ok converted
  | .error cause => .error (.invalidValue entry.schema.name cause)

/-- The value when neither a lock nor a file decides. -/
def resolveDefault (entry : Entry) (validating : Bool) : Except ConfigError (Option Value) :=
  match entry.override, entry.schema.default with
  | some value, _ =>
    if validating then some <$> entry.convertDefault value else .ok (some value)
  | none, some value => some <$> entry.convertDefault value
  | none, none => .ok none

/-- The value of an option of a group, or of none; nothing if no layer has one. -/
def resolve (entry : Entry) (group : Option String) (snapshot : Option Snapshot)
    (validating : Bool) : Except ConfigError (Option Value) :=
  match entry.locked, entry.fileValue? group snapshot with
  | some value, _ => .ok (some value)
  | none, some value => some <$> entry.convertFile value
  | none, none => entry.resolveDefault validating

end Entry

end LayeredConfig
