import LayeredConfig.Text.Basic
import LayeredConfig.Text.Quoted
import LayeredConfig.Decimal.Integer

/-!
# Internet addresses

Addresses of both families, with the texts that stand for them and the one
canonical text that they are written in.

An address of version 4 has exactly one text: four decimal octets without
leading zeros. An address of version 6 has many. Its groups are hexadecimal, one
gap `::` may stand for any positive number of zero groups, and the last two
groups may be given as an address of version 4. The canonical text closes the
first longest run of at least two zero groups into a gap; an address that embeds
one of version 4 behind `ffff` shows it in dotted form.
-/

namespace LayeredConfig

/-- The two address families. -/
inductive Family where
  | v4
  | v6
deriving DecidableEq, Repr

structure AddressV4 where
  first : UInt8
  second : UInt8
  third : UInt8
  fourth : UInt8
deriving DecidableEq

structure AddressV6 where
  groups : List UInt16
  length_groups : groups.length = 8
deriving DecidableEq

namespace AddressV4

/-- One to three digits, no needless zero in front, at most 255. -/
def octet? (text : List Char) : Option UInt8 :=
  if text.length ≤ 3 ∧ (text.head? = some '0' → text.length = 1) then
    (Decimal.natural? text).bind fun n => if n < 256 then some (UInt8.ofNat n) else none
  else none

def read? (text : List Char) : Option AddressV4 :=
  match Text.cut '.' text with
  | [a, b, c, d] => do
    some ⟨← octet? a, ← octet? b, ← octet? c, ← octet? d⟩
  | _ => none

def text (address : AddressV4) : List Char :=
  let octet (n : UInt8) := Nat.toDigits 10 n.toNat
  octet address.first ++ '.' :: octet address.second ++ '.' :: octet address.third ++
    '.' :: octet address.fourth

/-- The two groups that the octets make. -/
def groups (address : AddressV4) : List UInt16 :=
  [address.first.toUInt16 * 256 + address.second.toUInt16,
    address.third.toUInt16 * 256 + address.fourth.toUInt16]

/-- The address that two groups make. -/
def ofGroups (high low : UInt16) : AddressV4 :=
  ⟨(high / 256).toUInt8, high.toUInt8, (low / 256).toUInt8, low.toUInt8⟩

end AddressV4

namespace AddressV6

/-- The value of a hexadecimal digit of either case. -/
def hexDigit? (c : Char) : Option Nat :=
  if c.isDigit then some (c.toNat - '0'.toNat)
  else if 'a' ≤ c ∧ c ≤ 'f' then some (c.toNat - 'a'.toNat + 10)
  else if 'A' ≤ c ∧ c ≤ 'F' then some (c.toNat - 'A'.toNat + 10)
  else none

/-- One to four hexadecimal digits. -/
def group? (text : List Char) : Option UInt16 :=
  if text ≠ [] ∧ text.length ≤ 4 then
    (text.mapM hexDigit?).map fun digits =>
      UInt16.ofNat (digits.foldl (fun n d => n * 16 + d) 0)
  else none

/-- The groups of the pieces at the end of an address, where an address of version 4 may
stand last. -/
def closingGroups? : List (List Char) → Option (List UInt16)
  | [] => some []
  | [last] =>
    match group? last with
    | some group => some [group]
    | none => (AddressV4.read? last).map AddressV4.groups
  | piece :: rest => do
    let group ← group? piece
    let groups ← closingGroups? rest
    some (group :: groups)

/-- What stands before and after the first gap. -/
def cutGap : List Char → Option (List Char × List Char)
  | [] => none
  | [_] => none
  | c :: d :: rest =>
    if c = ':' ∧ d = ':' then some ([], rest)
    else (cutGap (d :: rest)).map fun halves => (c :: halves.1, halves.2)

/-- The pieces beside a gap; nothing is no piece. -/
def pieces (text : List Char) : List (List Char) :=
  if text = [] then [] else Text.cut ':' text

def ofGroups? (groups : List UInt16) : Option AddressV6 :=
  if h : groups.length = 8 then some ⟨groups, h⟩ else none

def read? (text : List Char) : Option AddressV6 :=
  match cutGap text with
  | none => (closingGroups? (Text.cut ':' text)).bind ofGroups?
  | some (before, after) => do
    let opening ← (pieces before).mapM group?
    let closing ← closingGroups? (pieces after)
    let given := opening.length + closing.length
    if given ≤ 7 then ofGroups? (opening ++ List.replicate (8 - given) 0 ++ closing)
    else none

/-- How many zero groups stand from a position on. -/
def zerosFrom (groups : List UInt16) (start : Nat) : Nat :=
  ((groups.drop start).takeWhile (· = 0)).length

/-- Where the first longest run of zero groups starts. -/
def longestZeros (groups : List UInt16) : Nat :=
  (List.range groups.length).foldl
    (fun best i => if zerosFrom groups best < zerosFrom groups i then i else best) 0

def groupsText (groups : List UInt16) : List Char :=
  [':'].intercalate (groups.map fun group => Text.hexadecimal group.toNat)

def text (address : AddressV6) : List Char :=
  match address.groups with
  | [0, 0, 0, 0, 0, 0xffff, high, low] =>
    "::ffff:".toList ++ (AddressV4.ofGroups high low).text
  | groups =>
    let start := longestZeros groups
    let length := zerosFrom groups start
    if 1 < length then
      groupsText (groups.take start) ++ "::".toList ++ groupsText (groups.drop (start + length))
    else groupsText groups

end AddressV6

/-- An address of either family. -/
inductive Address where
  | v4 (address : AddressV4)
  | v6 (address : AddressV6)
deriving DecidableEq

namespace Address

def family : Address → Family
  | v4 _ => .v4
  | v6 _ => .v6

/-- The address that a text stands for. -/
def read? (text : List Char) : Option Address :=
  match AddressV4.read? text with
  | some address => some (v4 address)
  | none => (AddressV6.read? text).map v6

/-- The canonical text. -/
def text : Address → List Char
  | v4 address => address.text
  | v6 address => address.text

end Address

end LayeredConfig
