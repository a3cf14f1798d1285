/-!
# Events

What is reported while options are parsed and shown: a level, a message, and
named details.
-/

namespace LayeredConfig

inductive Level where
  | error
  | warn
  | info
  | debug
  | trace
deriving DecidableEq, Repr

structure Event where
  level : Level
  message : String
  details : List (String × String) := []
deriving DecidableEq

end LayeredConfig
