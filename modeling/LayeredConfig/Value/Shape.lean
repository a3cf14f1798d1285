import LayeredConfig.Value

/-!
# Typed reading of values

A caller may ask for a value in a shape of its own: a text, a truth value, an
integer of some width, a double, or rows and tables of these. Nothing converts
between text, numbers and truth values; the only liberties are that an integer
also reads as a double and a date or time as its text.
-/

namespace LayeredConfig

/-- The shapes in which a value can be asked for. -/
inductive Shape where
  | string
  | boolean
  /-- An integer from `low` to `high`. -/
  | integer (low high : Int)
  | float
  | row (item : Shape)
  | table (field : Shape)

namespace Shape

/-- A signed integer of some number of bits. -/
def signed (bits : Nat) : Shape :=
  integer (-Int.pow 2 (bits - 1)) (Int.pow 2 (bits - 1) - 1)

/-- An unsigned integer of some number of bits. -/
def unsigned (bits : Nat) : Shape := integer 0 (Int.pow 2 bits - 1)

/-- The value in a shape, if it has it. -/
def read? : Shape → Value → Option Value
  | string, .string text => some (.string text)
  | string, .datetime text => some (.string text)
  | boolean, .boolean b => some (.boolean b)
  | integer low high, .integer n =>
    if low ≤ n.toInt ∧ n.toInt ≤ high then some (.integer n) else none
  | float, .float x => some (.float x)
  | float, .integer n => some (.float n.toFloat)
  | row item, .array items => (items.mapM fun x => item.read? x).map .array
  | table field, .table fields =>
    (fields.mapM fun f => (field.read? f.2).map fun x => (f.1, x)).map .table
  | _, _ => none

/-- The fields of a record in their shapes. Every one must be there; others do not matter. -/
def readRecord? (record : List (String × Shape)) (table : Table Value) : Option (List Value) :=
  record.mapM fun field => (table.get? field.1).bind field.2.read?

end Shape

end LayeredConfig
