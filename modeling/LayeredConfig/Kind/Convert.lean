import LayeredConfig.Kind
import LayeredConfig.Value.Inline

/-!
# Conversion to a kind

A value is converted to a kind either from text, as it comes from a file, or
from a value that already has the right form; a converted value converts to
itself. Text is trimmed before it is read, except by the text kinds, and the
error shows it as it was given.

A row is read from text cut at commas and a table from such pieces cut once more
at their first colon. Blank text has no pieces.
-/

namespace LayeredConfig.Kind

/-- The value is not of the kind. -/
def refuse (kind : Kind) (value : Value) : Except ValueError Value :=
  .error (.invalid kind.name value.text)

/-- Texts are kept; numbers and truth values are written out. -/
def convertText (choices : Option (List String)) (value : Value) : Except ValueError Value :=
  match value with
  | .string _ | .integer _ | .float _ | .boolean _ =>
    match choices with
    | none => .ok (.string value.text)
    | some allowed =>
      if value.text ∈ allowed then .ok (.string value.text)
      else .error (.notInChoices value.text allowed)
  | _ => refuse text value

/-- The truth value that a word stands for. -/
def truth? (word : String) : Option Bool :=
  if word ∈ ["true", "1", "on", "yes"] then some true
  else if word ∈ ["false", "0", "off", "no"] then some false
  else none

def convertBoolean (value : Value) : Except ValueError Value :=
  match value with
  | .boolean b => .ok (.boolean b)
  | .string text =>
    match truth? (String.ofList (Text.lowerAscii (Text.trimmed text))) with
    | some b => .ok (.boolean b)
    | none => refuse boolean value
  | _ => refuse boolean value

/-- The integer that a value gives, before its bounds are checked. -/
def integerOf? : Value → Option Int64
  | .integer n => some n
  | .string text => Decimal.integer? (Text.trimmed text)
  | _ => none

def convertInteger (min max : Option Int64) (value : Value) : Except ValueError Value :=
  match integerOf? value with
  | none => refuse (integer min max) value
  | some n =>
    if min.any (n < ·) || max.any (· < n) then
      let written (m : Int64) := String.ofList (Decimal.integerText m)
      .error (.outOfRange (written n) (min.map written) (max.map written))
    else .ok (.integer n)

/-- The double that a value gives, if it is a number. -/
def floatOf? (value : Value) : Option Float :=
  let given := match value with
    | .float x => some x
    | .integer n => some n.toFloat
    | .string text => Decimal.double? (Text.trimmed text)
    | _ => none
  given.filter fun x => !x.isNaN

def convertFloat (min max : Option Float) (value : Value) : Except ValueError Value :=
  match floatOf? value with
  | none => refuse (float min max) value
  | some x =>
    if min.any (x < ·) || max.any (· < x) then
      let written := Decimal.doubleText Decimal.plainStyle
      .error (.outOfRange (written x) (min.map written) (max.map written))
    else .ok (.float x)

/-- The canonical text of an address of the family asked for. -/
def convertAddress (family : Option Family) (value : Value) : Except ValueError Value :=
  let given := match value with
    | .string text =>
      (Address.read? (Text.trimmed text)).filter fun a => family.all (Address.family a = ·)
    | _ => none
  match given with
  | none => refuse (address family) value
  | some a => .ok (.string (String.ofList a.text))

/-- The trimmed pieces of a text between its commas; blank text has none. -/
def pieces (text : String) : List (List Char) :=
  let body := Text.trimmed text
  if body = [] then [] else (Text.cut ',' body).map Text.trim

/-- Read pieces of the form `key:value` into a table, left to right. -/
def readPairs (convert : String → Except ValueError Value) (table : Table Value) :
    List (List Char) → Except ValueError (Table Value)
  | [] => .ok table
  | piece :: rest =>
    match Text.cutFirst (· = ':') piece with
    | none => .error (.invalid (dict text).name (String.ofList piece))
    | some (before, after) =>
      let key := String.ofList (Text.trim before)
      if key = "" then .error (.invalid (dict text).name (String.ofList piece))
      else if table.contains key then .error (.duplicateKey key)
      else do
        let value ← convert (String.ofList (Text.trim after))
        readPairs convert (table.insert key value) rest

/-- Convert a text or an already typed value. -/
def convert : Kind → Value → Except ValueError Value
  | string choices, value => convertText choices value
  | multiString, value => convertText none value
  | boolean, value => convertBoolean value
  | integer min max, value => convertInteger min max value
  | float min max, value => convertFloat min max value
  | address family, value => convertAddress family value
  | list item, .array items => .array <$> items.mapM fun x => item.convert x
  | list item, .string text =>
    .array <$> (pieces text).mapM fun piece => item.convert (.string (String.ofList piece))
  | list item, value => refuse (list item) value
  | dict field, .table fields =>
    .table <$> fields.mapM fun f => (fun x => (f.1, x)) <$> field.convert f.2
  | dict field, .string text =>
    (fun table => .table table.toList) <$>
      readPairs (fun word => field.convert (.string word)) Table.empty (pieces text)
  | dict field, value => refuse (dict field) value

/-- Convert the text of a value from a file. -/
def convertString (kind : Kind) (raw : String) : Except ValueError Value :=
  kind.convert (.string raw)

end LayeredConfig.Kind
