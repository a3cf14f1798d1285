import LayeredConfig.Host

/-!
# Discovery

Where the configuration file of a project may lie. The file is named for the
project, and it is looked for in a list of locations, given from the lowest
priority to the highest. A location for which the host knows no directory is
passed over. A path that several locations lead to is found once, in the spelling
of the first of them.
-/

namespace LayeredConfig

/-- A directory to look in. -/
inductive Location where
  /-- The directory that the platform sets aside for the project. -/
  | platform
  /-- A directory below the home directory. -/
  | home (sub : String)
  | current
  | directory (path : String)
deriving DecidableEq

namespace Location

/-- The directory at a location. -/
def directory? (host : Host) (project : String) : Location → Option String
  | platform => host.platform project
  | home sub => host.home.map fun home => Path.append home sub
  | current => host.cwd
  | directory path => some path

/-- The file that a project would have at a location. -/
def candidate? (host : Host) (project : String) (location : Location) : Option String :=
  (location.directory? host project).map fun directory =>
    host.fixPath (Path.append directory (project ++ ".conf"))

/-- Where to look if a project does not say: a hidden directory of its own in the home
directory, the platform's, and the one for the whole system. -/
def defaults (project : String) : List Location :=
  [home ("." ++ project), platform, directory (Path.append "/etc" project)]

end Location

/-- The files of a project that exist, each at its first location. -/
def discover (host : Host) (project : String) (locations : List Location) : List String :=
  ((locations.filterMap (Location.candidate? host project)).filter host.isFile).eraseDupsBy
    Path.same

end LayeredConfig
