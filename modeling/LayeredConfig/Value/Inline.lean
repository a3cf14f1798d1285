import LayeredConfig.Value
import LayeredConfig.Decimal.Floating

/-!
# Inline text of values

A value on one line, in the notation of TOML. Messages show the values that are
not text in it.

A text inside a value is quoted in the plainest of five forms that can hold it:
double quotes, single quotes without escapes, the two with the quotes tripled,
and at last double quotes with every special character escaped. The fields of a
table keep their order.
-/

namespace LayeredConfig.Value

namespace Inline

/-- The length of the longest run of a character. -/
def longestRun (c : Char) (text : List Char) : Nat :=
  (text.foldl (fun (longest, current) d =>
    if d = c then (max longest (current + 1), current + 1) else (longest, 0)) (0, 0)).1

def isControl (c : Char) : Bool :=
  c.toNat < 0x20 || c.toNat = 0x7f

/-- A number below 256 in four uppercase hexadecimal digits. -/
def fourDigits (n : Nat) : List Char :=
  ['0', '0'] ++ [n / 16, n % 16].map fun d => (Nat.digitChar d).toUpper

/-- A character between double quotes, a double quote and a newline apart. -/
def escaped (c : Char) : List Char :=
  if c = '\x08' then ['\\', 'b']
  else if c = '\t' then ['\\', 't']
  else if c = '\x0c' then ['\\', 'f']
  else if c = '\r' then ['\\', 'r']
  else if c = '\\' then ['\\', '\\']
  else if isControl c then '\\' :: 'u' :: fourDigits c.toNat
  else [c]

/-- A text between double quotes. -/
def basic (text : List Char) : List Char :=
  '"' :: text.flatMap (fun c =>
    if c = '"' then ['\\', '"'] else if c = '\n' then ['\\', 'n'] else escaped c) ++ ['"']

/-- The body of a text between tripled double quotes: newlines stand as they are, and of the
double quotes in a row every third is escaped. -/
def tripledBody (quotes : Nat) : List Char → List Char
  | [] => []
  | c :: rest =>
    if c = '"' then
      if quotes = 2 then '\\' :: '"' :: tripledBody 0 rest
      else '"' :: tripledBody (quotes + 1) rest
    else (if c = '\n' then ['\n'] else escaped c) ++ tripledBody 0 rest

/-- A body between tripled quotes; a text of several lines starts on a line of its own. -/
def tripled (quote : Char) (severalLines : Bool) (body : List Char) : List Char :=
  let quotes := List.replicate 3 quote
  quotes ++ (if severalLines then ['\n'] else []) ++ body ++ quotes

/-- A text inside a value. -/
def string (text : String) : String :=
  let cs := text.toList
  let double := longestRun '"' cs
  let single := longestRun '\'' cs
  let special := cs.any fun c => isControl c && c ≠ '\t' && c ≠ '\n'
  let backslash := cs.contains '\\'
  let severalLines := cs.contains '\n'
  String.ofList <|
    if !special && !backslash && double = 0 && !severalLines then basic cs
    else if !special && single = 0 && !severalLines then '\'' :: cs ++ ['\'']
    else if !special && !backslash && double ≤ 2 then
      tripled '"' severalLines (tripledBody 0 cs)
    else if !special && single ≤ 2 then tripled '\'' severalLines cs
    else if severalLines then tripled '"' severalLines (tripledBody 0 cs)
    else basic cs

/-- A character of a name that needs no quotes. -/
def isBare (c : Char) : Bool :=
  c.isAlphanum || c = '-' || c = '_'

/-- The name of a field. -/
def key (name : String) : String :=
  let cs := name.toList
  let special := cs.any fun c => isControl c && c ≠ '\t'
  String.ofList <|
    if cs ≠ [] && cs.all isBare then cs
    else if !special && !cs.contains '\\' && !cs.contains '"' then basic cs
    else if !special && !cs.contains '\'' then '\'' :: cs ++ ['\'']
    else basic cs

/-- The fields of a table between braces. -/
def braced (fields : List String) : String :=
  if fields.isEmpty then "\x7b\x7d" else "\x7b " ++ ", ".intercalate fields ++ " \x7d"

end Inline

mutual

/-- The inline text of a value inside another one. -/
def nested : Value → String
  | string text => Inline.string text
  | integer n => String.ofList (Decimal.integerText n)
  | float x => Decimal.doubleText Decimal.inlineStyle x
  | boolean b => if b then "true" else "false"
  | datetime text => text
  | array items => "[" ++ ", ".intercalate (nestedItems items) ++ "]"
  | table fields => Inline.braced (nestedFields fields)

def nestedItems : List Value → List String
  | [] => []
  | x :: rest => nested x :: nestedItems rest

def nestedFields : List (String × Value) → List String
  | [] => []
  | (name, x) :: rest => (Inline.key name ++ " = " ++ nested x) :: nestedFields rest

end

/-- A value as it would be written in a configuration file: text as it is, anything else
inline. A date or time on its own is written as a table with one field. -/
def text : Value → String
  | string text => text
  | datetime text =>
    Inline.braced [Inline.key "$__toml_private_datetime" ++ " = " ++ Inline.string text]
  | value => value.nested

end LayeredConfig.Value
