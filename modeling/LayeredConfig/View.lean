import LayeredConfig.Config

/-!
# Views of a group

A view gives read access to the options of one group. It is taken of a group
that is there, and of the group it keeps the name, title and help alone. For
everything else it asks the configuration, each time anew, so that it always
shows the files and the defaults in force.
-/

namespace LayeredConfig

structure View where
  group : Group

/-- The view of a group, which must be there. -/
def Config.view? (config : Config) (name : String) : Except ConfigError View :=
  match config.registry.groups.get? name with
  | some m => .ok { group := m.group }
  | none => .error (.noSuchGroup name)

namespace View

def name (view : View) : String :=
  view.group.name

/-- The dests of the group; a group that is not there has none. -/
def keys (view : View) (config : Config) : List String :=
  match config.registry.groupKeys? view.name with
  | .ok dests => dests
  | .error _ => []

def contains (view : View) (config : Config) (dest : String) : Bool :=
  (view.keys config).contains dest

def size (view : View) (config : Config) : Nat :=
  (view.keys config).length

def isEmpty (view : View) (config : Config) : Bool :=
  (view.keys config).isEmpty

/-- The value of an option of the group. -/
def read (view : View) (dest : String) : StateM Config (Except ConfigError (Option Value)) :=
  Config.read dest (some view.name)

/-- The value of an option of the group in a shape. -/
def readAs (view : View) (shape : Shape) (dest : String) :
    StateM Config (Except ConfigError (Option Value)) :=
  Config.readAs shape dest (some view.name)

/-- The options of the group that have a value. -/
def table (view : View) : StateM Config (Except ConfigError (Table Value)) :=
  Config.table view.name

/-- The options of the group as a record. -/
def readRecord (view : View) (record : List (String × Shape)) :
    StateM Config (Except ConfigError (List Value)) :=
  Config.readRecord record view.name

end View

end LayeredConfig
