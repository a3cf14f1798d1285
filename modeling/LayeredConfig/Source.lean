import LayeredConfig.Source.Sections

/-!
# Sources

A source is one configuration file that was read: its path, its sections under
the names as written, and its sections under normalized names. Look-ups use the
normalized ones; the written names are kept to be shown.
-/

namespace LayeredConfig

structure Source where
  path : String
  sections : Sections
  normalized : Sections

namespace Source

def ofItems (path : String) (items : List Item) : Source where
  path := path
  sections := Sections.ofItems items
  normalized := Sections.ofItems (items.map (Item.rename normalizeName))

/-- Read a file. -/
def read (path content : String) : Except Fault Source :=
  ofItems path <$> readItems content

/-- The values of the first candidate that the source assigns. The names of the candidates
are normalized. -/
def find? (source : Source) (candidates : List (String × String)) : Option (List String) :=
  candidates.findSome? fun (name, key) =>
    (source.normalized.get? name).bind fun members => members.get? key

end Source

end LayeredConfig
