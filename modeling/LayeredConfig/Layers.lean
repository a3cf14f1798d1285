import LayeredConfig.Source

/-!
# Layers

Sources on top of each other, the one with the highest priority first. A look-up
takes candidates, each a section and a key, the preferred one first and then its
aliases. A single option reads the values in the highest source that has any
candidate. An option that collects reads the values in all such sources, the
lowest first.
-/

namespace LayeredConfig

structure Layers where
  /-- From the highest priority to the lowest. -/
  sources : List Source := []

namespace Layers

/-- Put a source on top. -/
def add (layers : Layers) (source : Source) : Layers :=
  ⟨source :: layers.sources⟩

/-- The layers of files read in this order, each on top of those before. -/
def ofReading (sources : List Source) : Layers :=
  ⟨sources.reverse⟩

def isEmpty (layers : Layers) : Bool :=
  layers.sources.isEmpty

def lookup (layers : Layers) (names : List (String × String)) (collect : Bool) :
    Option (List String) :=
  let candidates := names.map fun (name, key) => (normalizeName name, key)
  if collect then
    let found := layers.sources.reverse.filterMap fun source => source.find? candidates
    if found.isEmpty then none else some found.flatten
  else layers.sources.findSome? fun source => source.find? candidates

/-- Every section name as written, those of the highest source first, without repetition. -/
def sectionNames (layers : Layers) : List String :=
  (layers.sources.flatMap fun source => source.sections.keys).eraseDups

end Layers

end LayeredConfig
