import LayeredConfig.Report

/-!
# Command lines

What a command line asks of a configuration: files to read, which may be given
again and again, and one of the commands. A parser finds this among the arguments;
which parser that is, is left to the program.
-/

namespace LayeredConfig

/-- Why a command line is refused; asking for help is answered instead of obeyed, too. -/
inductive UsageError where
  | missingArgument
  | missingCommand
  | unknownCommand
  | unknownArgument
  | badValue
  | needlessValue
  | help
deriving DecidableEq, Repr

/-- A parser of the arguments of a program. -/
abbrev ArgumentParser (α : Type) := List String → Except UsageError α

/-- The commands on a configuration. -/
inductive Subcommand where
  | list
  | get (key : String)
  | sections

/-- What a parser found among the arguments for the commands on a configuration. -/
structure Arguments where
  files : List String
  command : Option Subcommand

/-- The action asked for; no command means to list everything. -/
def Arguments.action (arguments : Arguments) : Action :=
  match arguments.command with
  | none | some .list => .list
  | some (.get key) => .get key
  | some .sections => .sections

end LayeredConfig
