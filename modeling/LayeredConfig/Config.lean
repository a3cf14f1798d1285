import LayeredConfig.Registry.Parse
import LayeredConfig.Report
import LayeredConfig.Value.Shape

/-!
# Configurations

A configuration is a registry together with a memo of the values that were read
from it. A read that succeeds is remembered; every change of the registry, and
every parse that installs its files, empties the memo. A parse that fails keeps
it, since it changes nothing.

`Config.read` and `Registry.read` are two readers of the same values, one with
the memo and one without, and every report can be made with either.
-/

namespace LayeredConfig

structure Config where
  registry : Registry := {}
  memo : List ((Option String × String) × Option Value) := []

namespace Config

/-- Change the registry, and forget what was read. -/
def change {α : Type} (config : Config) (f : Registry → α × Registry) : α × Config :=
  let (answer, registry) := f config.registry
  (answer, { registry })

/-- The value of an option. -/
def read (dest : String) (group : Option String) :
    StateM Config (Except ConfigError (Option Value)) := fun config =>
  match config.registry.entry? dest group with
  | .error e => (.error e, config)
  | .ok entry =>
    match config.memo.lookup (group, dest) with
    | some value => (.ok value, config)
    | none =>
      match entry.resolve group config.registry.snapshot config.registry.validating with
      | .error e => (.error e, config)
      | .ok value => (.ok value, { config with memo := ((group, dest), value) :: config.memo })

/-- The value of an option in a shape. -/
def readAs (shape : Shape) (dest : String) (group : Option String) :
    StateM Config (Except ConfigError (Option Value)) := do
  match ← read dest group with
  | .error e => return .error e
  | .ok none => return .ok none
  | .ok (some value) =>
    match shape.read? value with
    | some shaped => return .ok (some shaped)
    | none => return .error (.shapeMismatch dest)

/-- The options of a group that have a value. -/
def table (group : String) : StateM Config (Except ConfigError (Table Value)) := do
  match (← get).registry.groupKeys? group with
  | .error e => return .error e
  | .ok keys => Report.tableOf read group Table.empty keys

/-- The options of a group as a record. -/
def readRecord (record : List (String × Shape)) (group : String) :
    StateM Config (Except ConfigError (List Value)) := do
  match ← table group with
  | .error e => return .error e
  | .ok fields =>
    match Shape.readRecord? record fields with
    | some values => return .ok values
    | none => return .error (.shapeMismatch group)

/-- Answer an action. -/
def handle (action : Action) : StateM Config (Except ConfigError Report) := do
  Report.make read (← get).registry action

/-- Dump everything as events of a level. -/
def dump (level : Level) : StateM Config (List Event) := do
  Report.dump read (← get).registry level

/-- Parse files and put them in force. -/
def parse (config : Config) (host : Host) (files : List String) (validating : Bool) :
    Except ConfigError Unit × Config :=
  match config.registry.parse host files validating with
  | (.ok _, registry) => (.ok (), { registry })
  | (.error e, _) => (.error e, config)

/-- Parse files in the mode in force; a failure changes nothing. -/
def reload (config : Config) (host : Host) (files : List String) : Bool × Config :=
  match config.parse host files config.registry.validating with
  | (.ok _, config') => (true, config')
  | (.error _, config') => (false, config')

end Config

end LayeredConfig
