/-!
# The shortest decimal of a binary number

A positive binary number `m * 2 ^ q` is what a whole interval of reals rounds
to: the interval reaches half way to its neighbours, and its ends belong to it
when `m` is even. `shortest` finds the decimal `digits * 10 ^ scale` in that
interval with the fewest digits; of two such decimals it takes the nearer, and
the greater of two equally near ones.

All comparisons are exact, over the natural numbers, after a common denominator
is cleared. At each length only the two neighbours of the number on the decimal
grid have to be tried: if any point of the grid lies in the interval, so does
one of them.
-/

namespace LayeredConfig.Decimal

/-- A decimal number: `digits` times ten to the power `scale`. -/
structure Scaled where
  digits : Nat
  scale : Int
deriving DecidableEq, Repr

/-- The reals that round to `value / den`: from `low / den` to `high / den`. -/
structure Interval where
  low : Nat
  value : Nat
  high : Nat
  den : Nat
  closed : Bool

/-- The interval of `m * 2 ^ q`. Below a power of two the neighbour is half as far
away, unless it is the least exponent. -/
def Interval.ofBinary (m : Nat) (q : Int) : Interval :=
  let low := if m = Nat.pow 2 52 ∧ q ≠ -1074 then 4 * m - 1 else 4 * m - 2
  let up := Nat.pow 2 (q - 2).toNat
  let down := Nat.pow 2 (2 - q).toNat
  { low := low * up, value := 4 * m * up, high := (4 * m + 2) * up, den := down
    closed := m % 2 = 0 }

/-- Whether the decimal `d * 10 ^ s` lies in the interval. -/
def Interval.contains (i : Interval) (d : Nat) (s : Int) : Bool :=
  let point := d * Nat.pow 10 s.toNat * i.den
  let shrink := Nat.pow 10 (-s).toNat
  if i.closed then i.low * shrink ≤ point && point ≤ i.high * shrink
  else i.low * shrink < point && point < i.high * shrink

/-- The exponent `k` with `10 ^ (k - 1) ≤ value < 10 ^ k`. -/
def Interval.magnitude (i : Interval) : Int :=
  if i.den ≤ i.value then (Nat.toDigits 10 (i.value / i.den)).length
  else 1 - (Nat.toDigits 10 ((i.den - 1) / i.value)).length

/-- The decimal with `length` digits that stands for the interval, if there is one. -/
def Interval.atLength? (i : Interval) (length : Nat) : Option Scaled :=
  let s := i.magnitude - length
  let num := i.value * Nat.pow 10 (-s).toNat
  let den := i.den * Nat.pow 10 s.toNat
  let d := num / den
  match i.contains d s, i.contains (d + 1) s with
  | true, true => some ⟨if 2 * (num % den) < den then d else d + 1, s⟩
  | true, false => some ⟨d, s⟩
  | false, true => some ⟨d + 1, s⟩
  | false, false => none

/-- Seventeen digits always suffice; the last alternative is for longer significands only. -/
def Interval.shortest (i : Interval) : Scaled :=
  ((List.range 17).findSome? fun n => i.atLength? (n + 1)).getD
    ⟨i.value * Nat.pow 10 i.den.log2 / i.den, -(i.den.log2 : Int)⟩

/-- The shortest decimal that stands for `m * 2 ^ q`. -/
def shortest (m : Nat) (q : Int) : Scaled :=
  (Interval.ofBinary m q).shortest

/-- Without the zeros at the end. -/
def dropTrailingZeros (digits : List Char) : List Char :=
  (digits.reverse.dropWhile (· = '0')).reverse

/-- A decimal in positional notation, without needless zeros and without a point in a
whole number. -/
def Scaled.positional (d : Scaled) : List Char :=
  let digits := Nat.toDigits 10 d.digits
  if 0 ≤ d.scale then
    digits ++ List.replicate d.scale.toNat '0'
  else
    let places := (-d.scale).toNat
    let padded := List.replicate (places + 1 - digits.length) '0' ++ digits
    let whole := padded.take (padded.length - places)
    let fraction := dropTrailingZeros (padded.drop (padded.length - places))
    if fraction = [] then whole else whole ++ '.' :: fraction

end LayeredConfig.Decimal
