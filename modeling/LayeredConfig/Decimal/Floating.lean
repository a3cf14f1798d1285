import LayeredConfig.Decimal.Integer
import LayeredConfig.Decimal.Shortest

/-!
# Decimal notation of floating-point numbers

Reading takes an optional sign and then a word for infinity or for no number,
in any case, or a decimal: digits with an optional point, at least one digit on
either side of it, and an optional power of ten. The number read is the nearest
double, whatever the length of the text.

Writing is positional and shortest. The two places that write a number differ
in two decisions, which `Style` records: whether a whole number carries
`.0`, and how no-number is spelled.
-/

namespace LayeredConfig.Decimal

def infinity : Float := Float.ofBits 0x7ff0000000000000

def notANumber : Float := Float.ofBits 0x7ff8000000000000

/-- The double nearest to `mantissa * 10 ^ exponent`. Powers beyond the range of doubles
are not formed. -/
def nearestDouble (mantissa : Nat) (exponent : Int) : Float :=
  let size := (Nat.toDigits 10 mantissa).length + exponent
  if mantissa = 0 then 0.0
  else if 310 < size then infinity
  else if size < -330 then 0.0
  else Float.ofScientific mantissa (exponent < 0) exponent.natAbs

/-- The power of ten at the end of a decimal. -/
def exponent? : List Char → Option Int
  | [] => some 0
  | c :: rest =>
    if c = 'e' || c = 'E' then
      let signed := splitSign rest
      (natural? signed.2).map fun n => if signed.1 then -n else n
    else none

/-- An unsigned decimal. -/
def decimal? (text : List Char) : Option Float :=
  let whole := text.takeWhile Char.isDigit
  let rest := text.dropWhile Char.isDigit
  let fraction := match rest with
    | '.' :: digits => digits.takeWhile Char.isDigit
    | _ => []
  let tail := match rest with
    | '.' :: digits => digits.dropWhile Char.isDigit
    | _ => rest
  if whole = [] ∧ fraction = [] then none
  else
    (exponent? tail).map fun e =>
      nearestDouble (Nat.ofDigitChars 10 (whole ++ fraction) 0) (e - fraction.length)

/-- An unsigned number: a word or a decimal. -/
def magnitude? (text : List Char) : Option Float :=
  let word := String.ofList (text.map Char.toLower)
  if word = "inf" ∨ word = "infinity" then some infinity
  else if word = "nan" then some notANumber
  else decimal? text

/-- The double written by a text. -/
def double? (text : List Char) : Option Float :=
  let signed := splitSign text
  (magnitude? signed.2).map fun x => if signed.1 then -x else x

/-- What the places that write a number decide for themselves. -/
structure Style where
  /-- What follows the digits of a whole number. -/
  wholeSuffix : String
  /-- How no-number is spelled. -/
  notANumber : String

/-- The text of a double. -/
def doubleText (style : Style) (x : Float) : String :=
  let bits := x.toBits.toNat
  let biased : Nat := bits / Nat.pow 2 52 % Nat.pow 2 11
  let fraction : Nat := bits % Nat.pow 2 52
  let sign := if Nat.pow 2 63 ≤ bits then "-" else ""
  if x.isNaN then style.notANumber
  else if biased = 2047 then sign ++ "inf"
  else if biased = 0 ∧ fraction = 0 then sign ++ "0" ++ style.wholeSuffix
  else
    let decimal :=
      if biased = 0 then shortest fraction (-1074)
      else shortest (Nat.pow 2 52 + fraction) ((biased : Int) - 1075)
    let digits := decimal.positional
    sign ++ String.ofList digits ++ (if digits.contains '.' then "" else style.wholeSuffix)

/-- In listings, messages and answers a whole number has no point. -/
def plainStyle : Style := ⟨"", "NaN"⟩

/-- In the inline text of a value a double can always be told from an integer. -/
def inlineStyle : Style := ⟨".0", "nan"⟩

end LayeredConfig.Decimal
