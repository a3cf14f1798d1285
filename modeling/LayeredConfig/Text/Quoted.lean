import LayeredConfig.Text.PrintableData
import LayeredConfig.Text.Lowercase

/-!
# Quoted text

Messages quote a text between double quotes so that it can be seen exactly:
quotes and backslashes are escaped, the common controls have short names, and
every other character without a glyph of its own is written by its code in
lowercase hexadecimal. A single quote stands as it is.
-/

namespace LayeredConfig.Text

/-- A number in lowercase hexadecimal, without leading zeros. -/
def hexadecimal (n : Nat) : List Char :=
  Nat.toDigits 16 n

/-- One character as it stands between quotes. -/
def escaped (c : Char) : List Char :=
  if c = '\x00' then ['\\', '0']
  else if c = '\t' then ['\\', 't']
  else if c = '\n' then ['\\', 'n']
  else if c = '\r' then ['\\', 'r']
  else if c = '"' then ['\\', '"']
  else if c = '\\' then ['\\', '\\']
  else if inRanges hiddenRanges c.toNat then
    ['\\', 'u', '{'] ++ hexadecimal c.toNat ++ ['}']
  else [c]

/-- A text between quotes. -/
def quoted (text : String) : String :=
  String.ofList ('"' :: text.toList.flatMap escaped ++ ['"'])

/-- A list of paths, each between quotes. -/
def quotedPaths (paths : List String) : String :=
  "[" ++ ", ".intercalate (paths.map quoted) ++ "]"

end LayeredConfig.Text
