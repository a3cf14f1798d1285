import LayeredConfig.Proofs.AddressText
import LayeredConfig.Proofs.Double.Nearest

/-!
# The text of a double

A double that is a number is written as a decimal in positional notation, and
it is read back from it (`double?_doubleText`). What reading gives depends on
the decimal alone (`Scaled.decimal?_positional`): `Scaled.Parts` says which
digits stand before the point and which behind it, and that together they are
the decimal again.
-/

namespace LayeredConfig.Decimal

/-- A row of digits. -/
def Digits (text : List Char) : Prop :=
  ∀ c ∈ text, ∃ d < 10, c = Nat.digitChar d

theorem digits_toDigits (n : Nat) : Digits (Nat.toDigits 10 n) := fun _ hc =>
  exists_of_mem_toDigits (by decide) hc

theorem digits_replicate_zero (k : Nat) : Digits (List.replicate k '0') := fun _ hc =>
  ⟨0, by decide, List.eq_of_mem_replicate hc⟩

theorem Digits.isDigit {text : List Char} (h : Digits text) : ∀ c ∈ text, c.isDigit = true := by
  have hall : ∀ d < 10, (Nat.digitChar d).isDigit = true := by decide
  intro c hc
  obtain ⟨d, hd, rfl⟩ := h c hc
  exact hall d hd

theorem Digits.append {xs ys : List Char} (hx : Digits xs) (hy : Digits ys) :
    Digits (xs ++ ys) := by
  intro c hc
  exact (List.mem_append.1 hc).elim (hx c) (hy c)

section Read

variable {whole fraction : List Char}

theorem decimal?_whole (hwhole : Digits whole) (hne : whole ≠ []) :
    decimal? whole = some (nearestDouble (Nat.ofDigitChars 10 whole 0) 0) := by
  have htake : whole.takeWhile Char.isDigit = whole :=
    List.takeWhile_eq_self_iff.2 hwhole.isDigit
  have hdrop : whole.dropWhile Char.isDigit = [] :=
    List.dropWhile_eq_nil_iff.2 hwhole.isDigit
  simp [decimal?, htake, hdrop, hne, exponent?]

theorem decimal?_point (hwhole : Digits whole) (hfraction : Digits fraction) (hne : whole ≠ []) :
    decimal? (whole ++ '.' :: fraction) =
      some (nearestDouble (Nat.ofDigitChars 10 (whole ++ fraction) 0) (-fraction.length)) := by
  have hpoint : ¬Char.isDigit '.' = true := by decide
  have htake : (whole ++ '.' :: fraction).takeWhile Char.isDigit = whole := by
    rw [List.takeWhile_append_of_pos hwhole.isDigit, List.takeWhile_cons_of_neg hpoint,
      List.append_nil]
  have hdrop : (whole ++ '.' :: fraction).dropWhile Char.isDigit = '.' :: fraction := by
    rw [List.dropWhile_append_of_pos hwhole.isDigit, List.dropWhile_cons_of_neg hpoint]
  have hall : fraction.takeWhile Char.isDigit = fraction :=
    List.takeWhile_eq_self_iff.2 hfraction.isDigit
  have hnone : fraction.dropWhile Char.isDigit = [] :=
    List.dropWhile_eq_nil_iff.2 hfraction.isDigit
  simp [decimal?, htake, hdrop, hall, hnone, hne, exponent?]

end Read

section Zeros

theorem exists_trailing_zeros (digits : List Char) :
    ∃ k, digits = dropTrailingZeros digits ++ List.replicate k '0' := by
  have hsplit := List.takeWhile_append_dropWhile (p := (· = '0')) (l := digits.reverse)
  have hzeros : digits.reverse.takeWhile (· = '0') =
      List.replicate (digits.reverse.takeWhile (· = '0')).length '0' := by
    rw [List.eq_replicate_iff]
    refine ⟨rfl, fun c hc => ?_⟩
    exact of_decide_eq_true (List.all_eq_true.1 List.all_takeWhile c hc)
  refine ⟨(digits.reverse.takeWhile (· = '0')).length, ?_⟩
  rw [dropTrailingZeros, ← List.reverse_replicate, ← hzeros, ← List.reverse_append, hsplit,
    List.reverse_reverse]

theorem Digits.dropTrailingZeros {digits : List Char} (h : Digits digits) :
    Digits (dropTrailingZeros digits) := by
  obtain ⟨k, hk⟩ := exists_trailing_zeros digits
  intro c hc
  apply h c
  rw [hk]
  exact List.mem_append_left _ hc

theorem value_dropTrailingZeros (whole behind : List Char) :
    (Nat.ofDigitChars 10 (whole ++ dropTrailingZeros behind) 0 : Rat) *
        10 ^ (-(dropTrailingZeros behind).length : Int) =
      Nat.ofDigitChars 10 (whole ++ behind) 0 * 10 ^ (-behind.length : Int) := by
  obtain ⟨k, hk⟩ := exists_trailing_zeros behind
  generalize dropTrailingZeros behind = fraction at hk ⊢
  have hmore : Nat.ofDigitChars 10 (whole ++ behind) 0 =
      10 ^ k * Nat.ofDigitChars 10 (whole ++ fraction) 0 := by
    rw [hk, ← List.append_assoc, Nat.ofDigitChars_append, Nat.ofDigitChars_replicate_zero]
  have hlength : behind.length = fraction.length + k := by
    rw [hk, List.length_append, List.length_replicate]
  rw [hmore, hlength, zpow_neg, zpow_neg, zpow_natCast, zpow_natCast, pow_add]
  push_cast
  field_simp

end Zeros

namespace Scaled

/-- The digits of a decimal before the point and behind it. -/
structure Parts (d : Scaled) (whole fraction : List Char) : Prop where
  whole_digits : Digits whole
  fraction_digits : Digits fraction
  whole_ne_nil : whole ≠ []
  text : d.positional = if fraction = [] then whole else whole ++ '.' :: fraction
  value : (Nat.ofDigitChars 10 (whole ++ fraction) 0 : Rat) * 10 ^ (-fraction.length : Int) =
    d.digits * 10 ^ d.scale

theorem parts_of_nonneg {n : Nat} {s : Int} (hs : 0 ≤ s) :
    Parts ⟨n, s⟩ (Nat.toDigits 10 n ++ List.replicate s.toNat '0') [] where
  whole_digits := (digits_toDigits n).append (digits_replicate_zero _)
  fraction_digits := List.forall_mem_nil _
  whole_ne_nil := List.append_ne_nil_of_left_ne_nil Nat.toDigits_ne_nil _
  text := if_pos hs
  value := by
    have hpower : (10 : Rat) ^ s = 10 ^ s.toNat := by
      rw [← zpow_natCast, Int.toNat_of_nonneg hs]
    rw [List.append_nil, Nat.ofDigitChars_append, Nat.ofDigitChars_ten_toDigits,
      Nat.ofDigitChars_replicate_zero, hpower]
    push_cast
    simp [mul_comm]

/-- The point is put among the digits, with zeros before them if there are too few. -/
theorem exists_parts_of_neg {n : Nat} {s : Int} (hs : s < 0) :
    ∃ whole fraction, Parts ⟨n, s⟩ whole fraction := by
  have hdigits := digits_toDigits n
  have hn := Nat.ofDigitChars_ten_toDigits (n := n)
  have htext : Scaled.positional ⟨n, s⟩ = _ := if_neg (not_le.2 hs)
  generalize Nat.toDigits 10 n = digits at hdigits hn htext
  obtain ⟨places, hplaces⟩ : ∃ places, (-s).toNat = places := ⟨_, rfl⟩
  obtain ⟨zeros, hzeros⟩ : ∃ zeros, places + 1 - digits.length = zeros := ⟨_, rfl⟩
  obtain ⟨padded, hpadded⟩ : ∃ padded, List.replicate zeros '0' ++ digits = padded := ⟨_, rfl⟩
  simp only [hplaces, hzeros, hpadded] at htext
  have hlength : places < padded.length := by
    rw [← hpadded, List.length_append, List.length_replicate]
    omega
  have hall : Digits padded := hpadded ▸ (digits_replicate_zero zeros).append hdigits
  have hvalue : Nat.ofDigitChars 10 padded 0 = n := by
    rw [← hpadded, Nat.ofDigitChars_append, Nat.ofDigitChars_replicate_zero, Nat.mul_zero, hn]
  refine ⟨_, _, ?_, ?_, ?_, htext, ?_⟩
  · exact fun c hc => hall c (List.mem_of_mem_take hc)
  · exact Digits.dropTrailingZeros fun c hc => hall c (List.mem_of_mem_drop hc)
  · apply List.ne_nil_of_length_pos
    rw [List.length_take]
    omega
  · have hbehind : ((padded.drop (padded.length - places)).length : Int) = -s := by
      rw [List.length_drop]
      omega
    rw [value_dropTrailingZeros, List.take_append_drop, hvalue, hbehind, neg_neg]

variable (d : Scaled)

theorem exists_parts : ∃ whole fraction, d.Parts whole fraction := by
  by_cases hs : 0 ≤ d.scale
  · exact ⟨_, _, parts_of_nonneg hs⟩
  · exact exists_parts_of_neg (not_le.1 hs)

theorem decimal?_positional : ∃ n e, decimal? d.positional = some (nearestDouble n e) ∧
    (n * 10 ^ e : Rat) = d.digits * 10 ^ d.scale := by
  obtain ⟨whole, fraction, hparts⟩ := d.exists_parts
  refine ⟨_, _, ?_, hparts.value⟩
  rw [hparts.text]
  split
  · next hnone =>
    rw [hnone, List.append_nil, decimal?_whole hparts.whole_digits hparts.whole_ne_nil]
    rfl
  · exact decimal?_point hparts.whole_digits hparts.fraction_digits hparts.whole_ne_nil

theorem exists_first_digit : ∃ k < 10, ∃ rest, d.positional = Nat.digitChar k :: rest := by
  obtain ⟨whole, fraction, hparts⟩ := d.exists_parts
  obtain ⟨c, rest, rfl⟩ := List.exists_cons_of_ne_nil hparts.whole_ne_nil
  obtain ⟨k, hk, rfl⟩ := hparts.whole_digits c List.mem_cons_self
  rw [hparts.text]
  split
  · exact ⟨k, hk, _, rfl⟩
  · exact ⟨k, hk, _, rfl⟩

theorem mem_positional {c : Char} (h : c ∈ d.positional) :
    (∃ k < 10, c = Nat.digitChar k) ∨ c = '.' := by
  obtain ⟨whole, fraction, hparts⟩ := d.exists_parts
  rw [hparts.text] at h
  split at h
  · exact .inl (hparts.whole_digits c h)
  · rcases List.mem_append.1 h with h | h
    · exact .inl (hparts.whole_digits c h)
    · rcases List.mem_cons.1 h with h | h
      · exact .inr h
      · exact .inl (hparts.fraction_digits c h)

theorem lower_positional_ne {c : Char} (hc : ∀ k < 10, (Nat.digitChar k).toLower ≠ c)
    (rest : List Char) :
    String.ofList (d.positional.map Char.toLower) ≠ String.ofList (c :: rest) := by
  obtain ⟨k, hk, digits, htext⟩ := d.exists_first_digit
  intro heq
  rw [htext, String.ofList_inj, List.map_cons] at heq
  exact hc k hk (List.cons.inj heq).1

theorem magnitude?_positional : magnitude? d.positional = decimal? d.positional := by
  have hinf := d.lower_positional_ne (c := 'i') (by decide) ['n', 'f']
  have hinfinity := d.lower_positional_ne (c := 'i') (by decide) ['n', 'f', 'i', 'n', 'i', 't', 'y']
  have hnan := d.lower_positional_ne (c := 'n') (by decide) ['a', 'n']
  rw [magnitude?, if_neg (not_or.2 ⟨hinf, hinfinity⟩), if_neg hnan]

theorem splitSign_positional : splitSign d.positional = (false, d.positional) := by
  obtain ⟨k, hk, rest, htext⟩ := d.exists_first_digit
  have hsign : ∀ k < 10, Nat.digitChar k ≠ '-' ∧ Nat.digitChar k ≠ '+' := by decide
  rw [splitSign.eq_def]
  split
  · next h => exact absurd (List.cons.inj (htext.symm.trans h)).1 (hsign k hk).1
  · next h => exact absurd (List.cons.inj (htext.symm.trans h)).1 (hsign k hk).2
  · rfl

end Scaled

section Finite

variable {m : Nat} {q : Int} (h : IsDouble m q)

include h

/-- The digits of a double are read as the double. -/
theorem magnitude?_shortest :
    magnitude? (shortest m q).positional = some (packed (.finite .positive m q h.pos)) := by
  obtain ⟨n, e, htext, hvalue⟩ := (shortest m q).decimal?_positional
  have hreach := roundsTo_shortest h
  rw [← hvalue] at hreach
  rw [Scaled.magnitude?_positional, htext, nearestDouble_eq h hreach]

theorem double?_doubleText_packed (sign : Float.Model.UnpackedFloat.Sign) :
    double? (doubleText plainStyle (packed (.finite sign m q h.pos))).toList =
      some (packed (.finite sign m q h.pos)) := by
  rw [doubleText_packed h]
  cases sign with
  | positive =>
    show double? ("" ++ String.ofList (shortest m q).positional).toList = _
    rw [String.empty_append, String.toList_ofList, double?, Scaled.splitSign_positional]
    simp only [magnitude?_shortest h]
    rfl
  | negative =>
    have htext : ("-" ++ String.ofList (shortest m q).positional).toList =
        '-' :: (shortest m q).positional := by
      rw [String.toList_append, String.toList_ofList, String.toList_ofList]
      rfl
    show double? ("-" ++ String.ofList (shortest m q).positional).toList = _
    rw [htext, double?, splitSign]
    simp only [magnitude?_shortest h]
    exact congrArg some (neg_packed (unpack_pack_finite h .positive))

end Finite

/-- A double that is a number is read back from its text. -/
theorem double?_doubleText {x : Float} (h : x.isNaN = false) :
    double? (doubleText plainStyle x).toList = some x := by
  rcases exists_packed h with ⟨sign, rfl⟩ | ⟨sign, rfl⟩ | ⟨sign, m, q, hdouble, rfl⟩
  · cases sign <;> rfl
  · cases sign <;> rfl
  · exact double?_doubleText_packed hdouble sign

theorem plain_doubleText {x : Float} (h : x.isNaN = false) :
    (doubleText plainStyle x).toList ≠ [] ∧ Text.Plain (doubleText plainStyle x).toList := by
  rcases exists_packed h with ⟨sign, rfl⟩ | ⟨sign, rfl⟩ | ⟨sign, m, q, hdouble, rfl⟩
  · cases sign <;> decide +kernel
  · cases sign <;> decide +kernel
  · rw [doubleText_packed hdouble, String.toList_append, String.toList_ofList]
    constructor
    · obtain ⟨k, hk, rest, htext⟩ := (shortest m q).exists_first_digit
      rw [htext]
      exact List.append_ne_nil_of_right_ne_nil _ (List.cons_ne_nil _ _)
    · intro c hc
      rcases List.mem_append.1 hc with hc | hc
      · split at hc
        · cases hc
        · rw [List.mem_singleton.1 hc]
          decide
      · rcases (shortest m q).mem_positional hc with ⟨k, hk, rfl⟩ | rfl
        · exact plain_digitChar k (by omega)
        · decide

end LayeredConfig.Decimal
