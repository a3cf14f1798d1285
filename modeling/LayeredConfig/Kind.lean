import LayeredConfig.Address

/-!
# Kinds of options

The kind of an option says which values it can have. A text kind may list its
choices, a number kind may have bounds on either side, and the kinds of rows and
tables carry the kind of what they hold, to any depth.

Kinds are compared part by part; bounds that are doubles are compared as
numbers, so a kind with a bound that is no number does not equal itself.
-/

namespace LayeredConfig

inductive Kind where
  | string (choices : Option (List String))
  | boolean
  | integer (min max : Option Int64)
  | float (min max : Option Float)
  | list (item : Kind)
  | dict (field : Kind)
  | address (family : Option Family)
  | multiString

namespace Kind

/-- Any text. -/
def text : Kind := string none

instance : Inhabited Kind := ⟨text⟩

/-- The name of a kind in messages. -/
def name : Kind → String
  | string _ => "string"
  | boolean => "boolean"
  | integer _ _ => "integer"
  | float _ _ => "float"
  | list _ => "list"
  | dict _ => "dict"
  | address _ => "IP address"
  | multiString => "multi-string"

/-- Whether two kinds are equal. -/
def same : Kind → Kind → Bool
  | string a, string b => a = b
  | boolean, boolean => true
  | integer a b, integer c d => a = c && b = d
  | float a b, float c d => a == c && b == d
  | list a, list b => same a b
  | dict a, dict b => same a b
  | address a, address b => a = b
  | multiString, multiString => true
  | _, _ => false

instance : BEq Kind := ⟨same⟩

end Kind

/-- Why a value does not convert. -/
inductive ValueError where
  /-- The value is not of the kind at all. -/
  | invalid (kind value : String)
  | notInChoices (value : String) (choices : List String)
  /-- The number lies outside the bounds, of which either may be open. -/
  | outOfRange (value : String) (min max : Option String)
  | duplicateKey (key : String)
deriving DecidableEq

namespace ValueError

def message : ValueError → String
  | invalid kind value => "invalid " ++ kind ++ " value: " ++ Text.quoted value
  | notInChoices value choices =>
    Text.quoted value ++ " is not one of the allowed choices [" ++ ", ".intercalate choices ++ "]"
  | outOfRange value min max =>
    value ++ " is outside the allowed range [" ++ min.getD "-" ++ ", " ++ max.getD "-" ++ "]"
  | duplicateKey key => "duplicate key " ++ Text.quoted key ++ " in mapping"

end ValueError

end LayeredConfig
