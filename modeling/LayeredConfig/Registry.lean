import LayeredConfig.Resolution

/-!
# The registry

Which options are registered, at the top level and in groups; what replaces
their defaults and what they are locked to; and the files in force, if any were
parsed. Options are kept under their dests and groups under their names.

An operation gives its answer and the registry after it. A failed operation
says so in its answer and leaves the registry as it was, except that
registering several options keeps those before the one that fails.
-/

namespace LayeredConfig

/-- A group with its options. -/
structure Member where
  group : Group
  entries : Table Entry := Table.empty

structure Registry where
  /-- The options outside all groups. -/
  top : Table Entry := Table.empty
  groups : Table Member := Table.empty
  snapshot : Option Snapshot := none
  /-- Whether defaults are validated, as the parse in force asked. -/
  validating : Bool := false

namespace Registry

/-- The options of a group, or those outside all groups. -/
def entries? (r : Registry) : Option String → Except ConfigError (Table Entry)
  | none => .ok r.top
  | some name =>
    match r.groups.get? name with
    | some m => .ok m.entries
    | none => .error (.noSuchGroup name)

/-- What is known of an option. -/
def entry? (r : Registry) (dest : String) (group : Option String) : Except ConfigError Entry :=
  match r.entries? group with
  | .error e => .error e
  | .ok entries =>
    match entries.get? dest with
    | some entry => .ok entry
    | none => .error (.noSuchOption dest group)

/-- Replace the options of a group, or those outside all groups. A group that is not there
stays away. -/
def setEntries (r : Registry) (group : Option String) (entries : Table Entry) : Registry :=
  match group with
  | none => { r with top := entries }
  | some name =>
    match r.groups.get? name with
    | some m => { r with groups := r.groups.insert name { m with entries } }
    | none => r

/-- Make sure that a group is there; one that is keeps its title and help. -/
def ensure (r : Registry) (group : Group) : Registry :=
  if r.groups.contains group.name then r
  else { r with groups := r.groups.insert group.name { group } }

/-- Make sure that a group given by name alone, if any, is there. -/
def ensureNamed (r : Registry) : Option String → Registry
  | none => r
  | some name => r.ensure (Group.ofName name)

/-- Add an option to a group that is there. The answer says whether it is new: an equal
option may be registered again, a different one under the same dest may not. -/
def add (r : Registry) (schema : Schema) (group : Option String) :
    Except ConfigError Bool × Registry :=
  match r.entries? group with
  | .error e => (.error e, r)
  | .ok entries =>
    match entries.get? schema.dest with
    | some known =>
      if known.schema == schema then (.ok false, r)
      else (.error (.duplicateOption schema.name), r)
    | none => (.ok true, r.setEntries group (entries.insert schema.dest { schema }))

/-- Register an option in a group, which is created if needed, or outside all groups. -/
def register (r : Registry) (schema : Schema) (group : Option String) :
    Except ConfigError Bool × Registry :=
  if schema.isReserved then (.error (.illegalName schema.name), r)
  else (r.ensureNamed group).add schema group

/-- Register an option in a group, which is created as given if needed. -/
def registerIn (r : Registry) (schema : Schema) (group : Group) :
    Except ConfigError Bool × Registry :=
  if schema.isReserved then (.error (.illegalName schema.name), r)
  else (r.ensure group).add schema (some group.name)

/-- Register options in order, up to the first that fails. -/
def registerMany (r : Registry) (group : Option String) :
    List Schema → Except ConfigError Unit × Registry
  | [] => (.ok (), r)
  | schema :: rest =>
    match r.register schema group with
    | (.error e, r') => (.error e, r')
    | (.ok _, r') => r'.registerMany group rest

/-- Create a group as given if needed, then register options in it in order. -/
def registerManyIn (r : Registry) (group : Group) (schemas : List Schema) :
    Except ConfigError Unit × Registry :=
  (r.ensure group).registerMany (some group.name) schemas

/-- Remove what is registered under the dests of some options. -/
def unregister (r : Registry) (schemas : List Schema) (group : Option String) :
    Except ConfigError Unit × Registry :=
  match r.entries? group with
  | .error e => (.error e, r)
  | .ok entries =>
    (.ok (), r.setEntries group (schemas.foldl (fun t schema => t.erase schema.dest) entries))

/-- Change what is known of a registered option. -/
def modify (r : Registry) (dest : String) (group : Option String) (f : Entry → Entry) :
    Except ConfigError Unit × Registry :=
  match r.entries? group with
  | .error e => (.error e, r)
  | .ok entries =>
    match entries.get? dest with
    | none => (.error (.noSuchOption dest group), r)
    | some entry => (.ok (), r.setEntries group (entries.insert dest (f entry)))

/-- Replace the default of an option. Files still win. -/
def setDefault (r : Registry) (dest : String) (value : Value) (group : Option String) :
    Except ConfigError Unit × Registry :=
  r.modify dest group fun entry => { entry with override := some value }

/-- Return to the default of the schema. -/
def clearDefault (r : Registry) (dest : String) (group : Option String) :
    Except ConfigError Unit × Registry :=
  r.modify dest group fun entry => { entry with override := none }

/-- Pin an option to a value. -/
def lock (r : Registry) (dest : String) (value : Value) (group : Option String) :
    Except ConfigError Unit × Registry :=
  r.modify dest group fun entry => { entry with locked := some value }

def unlock (r : Registry) (dest : String) (group : Option String) :
    Except ConfigError Unit × Registry :=
  r.modify dest group fun entry => { entry with locked := none }

/-- Return to the time before the first parse. Options keep what is known of them. -/
def clear (r : Registry) : Registry :=
  { r with snapshot := none, validating := false }

/-- Return to the time before the first parse, and drop every lock and replaced default. -/
def reset (r : Registry) : Registry :=
  { r.clear with
    top := r.top.map fun _ => Entry.fresh
    groups := r.groups.map fun _ m => { m with entries := m.entries.map fun _ => Entry.fresh } }

/-- Every registered option with its group: those outside all groups first, then group by
group. -/
def all (r : Registry) : List (Option String × Entry) :=
  r.top.values.map (fun entry => (none, entry)) ++
    r.groups.toList.flatMap fun (name, m) => m.entries.values.map fun entry => (some name, entry)

/-- The value of an option. -/
def read (r : Registry) (dest : String) (group : Option String) :
    Except ConfigError (Option Value) :=
  match r.entry? dest group with
  | .error e => .error e
  | .ok entry => entry.resolve group r.snapshot r.validating

/-- The sections of the files in force. -/
def sectionNames (r : Registry) : List String :=
  match r.snapshot with
  | some s => s.layers.sectionNames
  | none => []

/-- The files in force, in the order given. -/
def files (r : Registry) : List String :=
  match r.snapshot with
  | some s => s.files
  | none => []

/-- The dests outside all groups, then the names of the groups. -/
def keys (r : Registry) : List String :=
  r.top.keys ++ r.groups.keys

def size (r : Registry) : Nat :=
  r.top.size + r.groups.size

def contains (r : Registry) (name : String) : Bool :=
  r.top.contains name || r.groups.contains name

/-- The dests of a group. -/
def groupKeys? (r : Registry) (group : String) : Except ConfigError (List String) :=
  Table.keys <$> r.entries? (some group)

end Registry

end LayeredConfig
