import LayeredConfig.Kind.Convert

/-!
# Options and groups

The schema of an option names it, says how its text converts, and carries its
default and its flags. A value is stored and looked up under the `dest` of the
option, which is its name with every hyphen turned into an underscore unless it
is given.

An option that collects (`multi`) has a row of values, one for each time it is
assigned. Its kind is the kind of the items, and a single value given for it is a
row of one.
-/

namespace LayeredConfig

structure Schema where
  name : String
  dest : String
  kind : Kind
  default : Option Value := none
  help : Option String := none
  required : Bool := false
  secret : Bool := false
  multi : Bool := false

namespace Schema

/-- The storage key that a name gives. -/
def destOfName (name : String) : String :=
  String.ofList (name.toList.map fun c => if c = '-' then '_' else c)

/-- An option without a default, help or flags. -/
def ofName (name : String) (kind : Kind) : Schema where
  name := name
  dest := destOfName name
  kind := kind

/-- Names that start with an underscore are not for callers. -/
def isReserved (schema : Schema) : Bool :=
  schema.name.toList.head? = some '_'

/-- Whether every part of two schemas is equal. -/
def same (a b : Schema) : Bool :=
  a.name = b.name && a.dest = b.dest && a.kind == b.kind && a.default == b.default &&
    a.help = b.help && a.required = b.required && a.secret = b.secret && a.multi = b.multi

instance : BEq Schema := ⟨same⟩

/-- Convert a value as the option does. -/
def convert (schema : Schema) (value : Value) : Except ValueError Value :=
  if schema.multi then
    match value with
    | .array items => .array <$> items.mapM schema.kind.convert
    | single => .array <$> [single].mapM schema.kind.convert
  else schema.kind.convert value

end Schema

/-- A named collection of options. It reads the section of the same name. -/
structure Group where
  name : String
  title : String
  help : Option String := none
deriving DecidableEq

namespace Group

/-- A group that only its name is known of. -/
def ofName (name : String) : Group where
  name := name
  title := name ++ " options"

end Group

end LayeredConfig
