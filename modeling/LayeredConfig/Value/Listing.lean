import LayeredConfig.Value.Inline

/-!
# Values in listings

The text of a value where a person reads it. Rows and tables are written in the
form in which they are read: commas between the items, a colon after each name.
-/

namespace LayeredConfig.Value

mutual

/-- The text of a value in a listing. -/
def listed : Value → String
  | string text => text
  | integer n => String.ofList (Decimal.integerText n)
  | float x => Decimal.doubleText Decimal.plainStyle x
  | boolean b => if b then "true" else "false"
  | datetime text => (datetime text).text
  | array items => ", ".intercalate (listedItems items)
  | table fields => ", ".intercalate (listedFields fields)

def listedItems : List Value → List String
  | [] => []
  | x :: rest => listed x :: listedItems rest

def listedFields : List (String × Value) → List String
  | [] => []
  | (name, x) :: rest => (name ++ ":" ++ listed x) :: listedFields rest

end

@[simp] theorem listedItems_eq_map (items : List Value) : listedItems items = items.map listed := by
  induction items with
  | nil => rfl
  | cons x rest ih => rw [listedItems, ih, List.map_cons]

@[simp] theorem listedFields_eq_map (fields : List (String × Value)) :
    listedFields fields = fields.map fun f => f.1 ++ ":" ++ listed f.2 := by
  induction fields with
  | nil => rfl
  | cons f rest ih => rw [listedFields, ih, List.map_cons]

end LayeredConfig.Value
