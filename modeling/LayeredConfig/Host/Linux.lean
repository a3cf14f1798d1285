import LayeredConfig.Path
import LayeredConfig.Text.Lowercase

/-!
# Platform directories on Linux

An answer that a host may give to where the platform keeps the configuration of a
project, for the hosts that programs are run on here. Nothing else rests on it.
-/

namespace LayeredConfig.Linux

/-- The name that the platform gives to a project: lowercase, without blanks. -/
def platformName (project : String) : String :=
  String.join ((Text.words project.toList).map fun word => Text.lowercase (String.ofList word))

/-- Where the platform keeps the configuration of a project: below a directory that is set, or
else below `.config` in the home directory. -/
def platform (configHome : Option String) (home project : String) : String :=
  Path.append (configHome.getD (Path.append home ".config")) (platformName project)

end LayeredConfig.Linux
