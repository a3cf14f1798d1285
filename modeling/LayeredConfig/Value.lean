import LayeredConfig.Table

/-!
# Values

A configuration value: text, a 64-bit integer, a double, a truth value, a date
or time, or a row or table of values. The fields of a table stand in ascending
order of their names, and no name stands twice; `Value.ofFields` builds a table
from fields in any order.

Values are compared field by field. Numbers are compared as numbers, so no
double that is no number equals itself, and the two zeros are equal.
-/

namespace LayeredConfig

inductive Value where
  | string (text : String)
  | integer (n : Int64)
  | float (x : Float)
  | boolean (b : Bool)
  | datetime (text : String)
  | array (items : List Value)
  | table (fields : List (String × Value))
deriving Inhabited

namespace Value

/-- A table with the given fields; a later field replaces an earlier one of its name. -/
def ofFields (fields : List (String × Value)) : Value :=
  table (Table.ofList fields).toList

mutual

/-- Whether two values are equal. -/
def same : Value → Value → Bool
  | string s, string t => s = t
  | integer m, integer n => m = n
  | float x, float y => x == y
  | boolean a, boolean b => a = b
  | datetime s, datetime t => s = t
  | array xs, array ys => sameItems xs ys
  | table xs, table ys => sameFields xs ys
  | _, _ => false

def sameItems : List Value → List Value → Bool
  | [], [] => true
  | x :: xs, y :: ys => same x y && sameItems xs ys
  | _, _ => false

def sameFields : List (String × Value) → List (String × Value) → Bool
  | [], [] => true
  | (j, x) :: xs, (k, y) :: ys => j = k && same x y && sameFields xs ys
  | _, _ => false

end

instance : BEq Value := ⟨same⟩

end Value

end LayeredConfig
