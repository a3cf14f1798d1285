import LayeredConfig.Table
import LayeredConfig.Text.Lowercase
import LayeredConfig.Source.Reader

/-!
# Sections

The items of a file, gathered by section and key. Every assignment is kept, in
the order of the file, also when its section is opened several times; a section
without assignments is kept too.

Look-ups compare section names in normalized form: in lowercase, except for the
section `DEFAULT` of the options outside all groups, whose name is exact.
-/

namespace LayeredConfig

/-- Section by section and key by key, the values assigned. -/
abbrev Sections := Table (Table (List String))

/-- The section of the options outside all groups. -/
def defaultSection : String := "DEFAULT"

/-- The form in which section names are compared. -/
def normalizeName (name : String) : String :=
  if name = defaultSection then name else Text.lowercase name

/-- The item under another name. -/
def Item.rename (f : String → String) : Item → Item
  | header name => header (f name)
  | assignment name key value => assignment (f name) key value

namespace Sections

/-- The keys of a section; a section that is not there has none. -/
def members (sections : Sections) (name : String) : Table (List String) :=
  (sections.get? name).getD Table.empty

/-- The values of a key in order; none if it is not assigned. -/
def valuesOf (sections : Sections) (name key : String) : List String :=
  ((sections.members name).get? key).getD []

/-- Add one item. -/
def record (sections : Sections) : Item → Sections
  | .header name => sections.insert name (sections.members name)
  | .assignment name key value =>
    sections.insert name
      ((sections.members name).insert key (sections.valuesOf name key ++ [value]))

def ofItems (items : List Item) : Sections :=
  items.foldl record Table.empty

end Sections

end LayeredConfig
