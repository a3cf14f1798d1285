import LayeredConfig.Error
import LayeredConfig.Path

/-!
# The host

What this library asks of the machine that it runs on: the current directory,
the home directory, the directories that the platform sets aside, and how reading
a path turns out. A `Host` answers these questions at one moment; nothing else
about the machine matters, and nothing here changes it. The questions about
directories may have no answer.
-/

namespace LayeredConfig

/-- How reading a file turns out. -/
inductive ReadOutcome where
  | content (text : String)
  | notFound
  | denied
  | failed (cause : ReadFailure)
deriving DecidableEq

structure Host where
  cwd : Option String
  home : Option String
  /-- Where the platform keeps the configuration of a project. -/
  platform : String → Option String
  read : String → ReadOutcome
  /-- Whether a path leads to a regular file. -/
  isFile : String → Bool

namespace Host

/-- A path as it is used on this host. -/
def fixPath (host : Host) (path : String) : String :=
  Path.fix host.home host.cwd path

end Host

end LayeredConfig
