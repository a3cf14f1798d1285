/-!
# Decimal integers

Whole numbers in decimal notation. Reading takes an optional sign and at least
one digit, and refuses what does not fit 64 bits; writing uses the fewest
digits and a sign for negative numbers only. What is written is read back
(`integer?_integerText`).
-/

namespace LayeredConfig.Decimal

/-- The number that a non-empty row of digits stands for. -/
def natural? (text : List Char) : Option Nat :=
  if text ≠ [] ∧ text.all Char.isDigit then some (Nat.ofDigitChars 10 text 0) else none

/-- Split an optional sign off; `true` stands for a minus. -/
def splitSign : List Char → Bool × List Char
  | '-' :: rest => (true, rest)
  | '+' :: rest => (false, rest)
  | text => (false, text)

/-- A number as a 64-bit word, if it fits. -/
def word? (value : Int) : Option Int64 :=
  if Int64.minValue.toInt ≤ value ∧ value ≤ Int64.maxValue.toInt then
    some (Int64.ofInt value)
  else none

/-- The signed 64-bit number written by a text. -/
def integer? (text : List Char) : Option Int64 :=
  let signed := splitSign text
  (natural? signed.2).bind fun n => word? (if signed.1 then -n else n)

def integerText (n : Int64) : List Char :=
  if n < 0 then '-' :: Nat.toDigits 10 n.toInt.natAbs
  else Nat.toDigits 10 n.toInt.natAbs

theorem natural?_toDigits (n : Nat) : natural? (Nat.toDigits 10 n) = some n := by
  have hall : (Nat.toDigits 10 n).all Char.isDigit = true :=
    List.all_eq_true.2 fun c hc => Nat.isDigit_of_mem_toDigits (by decide) (by decide) hc
  simp [natural?, hall, Nat.toDigits_ne_nil, Nat.ofDigitChars_ten_toDigits]

theorem splitSign_toDigits (n : Nat) :
    splitSign (Nat.toDigits 10 n) = (false, Nat.toDigits 10 n) := by
  have hdigit : ∀ c ∈ Nat.toDigits 10 n, c.isDigit := fun c hc =>
    Nat.isDigit_of_mem_toDigits (by decide) (by decide) hc
  rw [splitSign.eq_def]
  split
  · next h => exact absurd (hdigit '-' (by simp [h])) (by decide)
  · next h => exact absurd (hdigit '+' (by simp [h])) (by decide)
  · rfl

@[simp] theorem word?_toInt (n : Int64) : word? n.toInt = some n := by
  have hle : Int64.minValue.toInt ≤ n.toInt := Int64.minValue_le_toInt n
  have hge : n.toInt ≤ Int64.maxValue.toInt := Int64.toInt_le n
  rw [word?, if_pos ⟨hle, hge⟩, Int64.ofInt_toInt]

/-- A number is read back from its text. -/
theorem integer?_integerText (n : Int64) : integer? (integerText n) = some n := by
  by_cases h : n < 0
  · have hneg : n.toInt < 0 := by simpa [Int64.lt_iff_toInt_lt] using h
    have habs : -(n.toInt.natAbs : Int) = n.toInt := by omega
    rw [integerText, if_pos h]
    simp only [integer?, splitSign, natural?_toDigits, Option.bind_some, if_true, habs,
      word?_toInt]
  · have hpos : 0 ≤ n.toInt := by
      have : ¬ n.toInt < 0 := by simpa [Int64.lt_iff_toInt_lt] using h
      omega
    have habs : (n.toInt.natAbs : Int) = n.toInt := by omega
    rw [integerText, if_neg h]
    simp only [integer?, splitSign_toDigits, natural?_toDigits, Option.bind_some,
      Bool.false_eq_true, if_false, habs, word?_toInt]

end LayeredConfig.Decimal
