import LayeredConfig.Proofs.Double.Rounding

/-!
# The shortest decimal of a double

The text of a double is the shortest decimal in the interval of the numbers
that are rounded to it. All of the interval is rounded to the double
(`Interval.roundsTo_of_contains`), and it is so wide that one of the two
neighbours on the grid of seventeen digits is inside
(`Interval.exists_of_atLength?`): so there is a shortest decimal, and it is
rounded to the double (`roundsTo_shortest`).

Intervals are kept as natural numbers over a common denominator. `lower`,
`center` and `upper` are the fractions these stand for.
-/

namespace LayeredConfig.Decimal

theorem zpow_eq_div {b : Rat} (hb : b ≠ 0) (s : Int) : b ^ s = b ^ s.toNat / b ^ (-s).toNat := by
  rw [eq_div_iff (pow_ne_zero _ hb), ← zpow_natCast, ← zpow_natCast, ← zpow_add₀ hb]
  congr 1
  omega

theorem length_toDigits_bounds {n : Nat} (hn : 0 < n) :
    10 ^ ((Nat.toDigits 10 n).length - 1) ≤ n ∧ n < 10 ^ (Nat.toDigits 10 n).length := by
  have hpos : 0 < (Nat.toDigits 10 n).length := Nat.length_toDigits_pos
  have hupper := (Nat.length_toDigits_le_iff (b := 10) (n := n) (by decide) hpos).1 le_rfl
  refine ⟨?_, hupper⟩
  by_contra! hlt
  by_cases hone : (Nat.toDigits 10 n).length - 1 = 0
  · rw [hone] at hlt
    omega
  · have hle := (Nat.length_toDigits_le_iff (by decide) (Nat.pos_of_ne_zero hone)).2 hlt
    omega

namespace Interval

variable {i : Interval}

def lower (i : Interval) : Rat :=
  i.low / i.den

def center (i : Interval) : Rat :=
  i.value / i.den

def upper (i : Interval) : Rat :=
  i.high / i.den

theorem contains_iff (hden : 0 < i.den) (d : Nat) (s : Int) :
    i.contains d s = true ↔
      if i.closed then i.lower ≤ d * 10 ^ s ∧ d * 10 ^ s ≤ i.upper
      else i.lower < d * 10 ^ s ∧ d * 10 ^ s < i.upper := by
  have hpos : (0 : Rat) < i.den := by exact_mod_cast hden
  have hshrink : (0 : Rat) < 10 ^ (-s).toNat := by positivity
  have hpoint : (d * 10 ^ s : Rat) = d * 10 ^ s.toNat / 10 ^ (-s).toNat := by
    rw [zpow_eq_div (by norm_num), mul_div_assoc]
  rw [hpoint, lower, upper, div_le_div_iff₀ hpos hshrink, div_le_div_iff₀ hshrink hpos,
    div_lt_div_iff₀ hpos hshrink, div_lt_div_iff₀ hshrink hpos, contains]
  cases i.closed
  · simp only [Bool.false_eq_true, if_false, Bool.and_eq_true, decide_eq_true_eq]
    norm_cast
  · simp only [if_true, Bool.and_eq_true, decide_eq_true_eq]
    norm_cast

theorem beyond_of_not_contains (hden : 0 < i.den) {d : Nat} {s : Int}
    (h : i.contains d s = false) : d * 10 ^ s ≤ i.lower ∨ i.upper ≤ d * 10 ^ s := by
  rw [Bool.eq_false_iff, Ne, contains_iff hden] at h
  by_contra! hinside
  split at h
  · exact h ⟨hinside.1.le, hinside.2.le⟩
  · exact h hinside

theorem contains_of_atLength? {length : Nat} {d : Scaled} (h : i.atLength? length = some d) :
    i.contains d.digits d.scale = true := by
  simp only [atLength?] at h
  split at h
  · next h1 h2 =>
    cases h
    simp only
    split
    · exact h1
    · exact h2
  · next h1 h2 => cases h; exact h1
  · next h1 h2 => cases h; exact h2
  · cases h

theorem pow_magnitude_le (hden : 0 < i.den) (hvalue : 0 < i.value) :
    10 ^ (i.magnitude - 1) ≤ i.center := by
  have hpos : (0 : Rat) < i.den := by exact_mod_cast hden
  rw [magnitude, center]
  split
  · next hle =>
    have hdigits := (length_toDigits_bounds (Nat.div_pos hle hden)).1
    have hlength : 0 < (Nat.toDigits 10 (i.value / i.den)).length := Nat.length_toDigits_pos
    generalize (Nat.toDigits 10 (i.value / i.den)).length = length at hdigits hlength
    have hexponent : (length : Int) - 1 = (length - 1 : Nat) := by omega
    calc (10 : Rat) ^ ((length : Int) - 1) = 10 ^ (length - 1) := by rw [hexponent, zpow_natCast]
      _ ≤ (i.value / i.den : Nat) := by exact_mod_cast hdigits
      _ ≤ i.value / i.den := Nat.cast_div_le
  · next hlt =>
    have hlength : 0 < (Nat.toDigits 10 ((i.den - 1) / i.value)).length := Nat.length_toDigits_pos
    have hdigits := (Nat.length_toDigits_le_iff (b := 10) (by decide) hlength).1 le_rfl
    generalize (Nat.toDigits 10 ((i.den - 1) / i.value)).length = length at hdigits
    have hexponent : 1 - (length : Int) - 1 = -(length : Nat) := by omega
    have hlarge : i.den ≤ 10 ^ length * i.value := by
      rw [Nat.div_lt_iff_lt_mul hvalue] at hdigits
      omega
    rw [hexponent, zpow_neg, zpow_natCast, inv_eq_one_div, div_le_div_iff₀ (by positivity) hpos,
      one_mul, mul_comm]
    exact_mod_cast hlarge

theorem grid_bounds (hden : 0 < i.den) (s : Int) :
    ((i.value * 10 ^ (-s).toNat / (i.den * 10 ^ s.toNat) : Nat) : Rat) * 10 ^ s ≤ i.center ∧
      i.center <
        ((i.value * 10 ^ (-s).toNat / (i.den * 10 ^ s.toNat) + 1 : Nat) : Rat) * 10 ^ s := by
  have hpos : (0 : Rat) < i.den := by exact_mod_cast hden
  have hnatural : 0 < i.den * 10 ^ s.toNat := by positivity
  have hpower : (10 : Rat) ^ s = 10 ^ s.toNat / 10 ^ (-s).toNat := zpow_eq_div (by norm_num) s
  have hscaled : i.center =
      ((i.value * 10 ^ (-s).toNat : Nat) : Rat) / (i.den * 10 ^ s.toNat : Nat) * 10 ^ s := by
    rw [hpower, center]
    push_cast
    field_simp
  rw [hscaled]
  generalize i.value * 10 ^ (-s).toNat = num
  generalize i.den * 10 ^ s.toNat = den at hnatural ⊢
  have hfloor : ((num / den : Nat) : Rat) ≤ num / den := Nat.cast_div_le
  have hceil : (num : Rat) / den < (num / den + 1 : Nat) := by
    rw [div_lt_iff₀ (by exact_mod_cast hnatural), mul_comm]
    exact_mod_cast Nat.lt_mul_div_succ num hnatural
  constructor
  · gcongr
  · gcongr

section Binary

variable (m : Nat) (q : Int)

theorem den_ofBinary_pos : 0 < (ofBinary m q).den := Nat.two_pow_pos _

theorem cast_mul_up_div_down (n : Nat) :
    ((n * Nat.pow 2 (q - 2).toNat : Nat) : Rat) / (Nat.pow 2 (2 - q).toNat : Nat) =
      n * (2 ^ q / 4) := by
  have hpow : ∀ k : Nat, ((Nat.pow 2 k : Nat) : Rat) = 2 ^ k := fun k => Nat.cast_pow 2 k
  have hquarter : (2 : Rat) ^ q / 4 = 2 ^ (q - 2) := by
    rw [zpow_sub₀ two_ne_zero]
    norm_num
  rw [hquarter, zpow_eq_div two_ne_zero, Nat.cast_mul, hpow, hpow, neg_sub, mul_div_assoc]

theorem center_ofBinary : (ofBinary m q).center = m * 2 ^ q := by
  refine (cast_mul_up_div_down q (4 * m)).trans ?_
  push_cast
  ring

theorem upper_ofBinary : (ofBinary m q).upper = (m + 1 / 2) * 2 ^ q := by
  refine (cast_mul_up_div_down q (4 * m + 2)).trans ?_
  push_cast
  ring

theorem center_lt_upper : (ofBinary m q).center < (ofBinary m q).upper := by
  rw [center_ofBinary, upper_ofBinary]
  apply mul_lt_mul_of_pos_right _ (by positivity)
  linarith

theorem lower_ofBinary (hm : 0 < m) :
    (ofBinary m q).lower =
      (if m = 2 ^ 52 ∧ q ≠ -1074 then (m : Rat) - 1 / 4 else m - 1 / 2) * 2 ^ q := by
  refine (cast_mul_up_div_down q _).trans ?_
  show ((if m = 2 ^ 52 ∧ q ≠ -1074 then 4 * m - 1 else 4 * m - 2 : Nat) : Rat) * _ = _
  split
  · rw [Nat.cast_sub (by omega)]
    push_cast
    ring
  · rw [Nat.cast_sub (by omega)]
    push_cast
    ring

variable {m q}

/-- The interval of a number holds only what is rounded to it. -/
theorem roundsTo_of_contains (hm : 0 < m) {d : Nat} {s : Int}
    (h : (ofBinary m q).contains d s = true) : RoundsTo m q (d * 10 ^ s) := by
  have hunit : (0 : Rat) < 2 ^ q := by positivity
  have hends : (ofBinary m q).lower ≤ d * 10 ^ s ∧ d * 10 ^ s ≤ (ofBinary m q).upper := by
    rw [contains_iff (den_ofBinary_pos m q)] at h
    split at h
    · exact h
    · exact ⟨h.1.le, h.2.le⟩
  rw [lower_ofBinary m q hm, upper_ofBinary] at hends
  refine ⟨?_, hends.2, fun hbinade hq => ?_, fun hodd => ?_⟩
  · have hlower := hends.1
    split at hlower <;> linarith
  · rw [if_pos ⟨hbinade, hq⟩] at hends
    exact hends.1
  · have hnot : ¬(m = 2 ^ 52 ∧ q ≠ -1074) := by omega
    have hopen : (ofBinary m q).closed = false := decide_eq_false (by omega)
    rw [contains_iff (den_ofBinary_pos m q), if_neg (by simp [hopen]), lower_ofBinary m q hm,
      if_neg hnot, upper_ofBinary] at h
    exact ⟨h.1.ne', h.2.ne⟩

section Width

variable (h : IsDouble m q)

include h

theorem lower_lt_center : (ofBinary m q).lower < (ofBinary m q).center := by
  rw [lower_ofBinary m q h.pos, center_ofBinary]
  apply mul_lt_mul_of_pos_right _ (by positivity)
  split <;> linarith

/-- The interval is wider than a unit in the seventeenth digit. -/
theorem center_lt_width :
    (ofBinary m q).center < 10 ^ 16 * ((ofBinary m q).upper - (ofBinary m q).lower) := by
  have hsize : (m : Rat) < 2 ^ 53 := by exact_mod_cast h.lt
  rw [center_ofBinary, upper_ofBinary, lower_ofBinary m q h.pos, ← sub_mul, ← mul_assoc]
  apply mul_lt_mul_of_pos_right _ (by positivity)
  split
  · next hbinade =>
    rw [hbinade.1]
    norm_num
  · linarith

/-- One of the two neighbours on the grid of seventeen digits lies in the interval, since the
number lies between them. -/
theorem exists_of_atLength? : ∃ d, (ofBinary m q).atLength? 17 = some d := by
  have hden := den_ofBinary_pos m q
  have hvalue : 0 < (ofBinary m q).value :=
    Nat.mul_pos (Nat.mul_pos (by decide) h.pos) (Nat.two_pow_pos _)
  have hlower := lower_lt_center h
  have hupper := center_lt_upper m q
  have hwidth := center_lt_width h
  generalize ofBinary m q = i at *
  obtain ⟨s, hs⟩ : ∃ s, i.magnitude - ((17 : Nat) : Int) = s := ⟨_, rfl⟩
  have hunit : 10 ^ 16 * 10 ^ s ≤ i.center := by
    have hpower : (10 : Rat) ^ (i.magnitude - 1) = 10 ^ 16 * 10 ^ s := by
      rw [← zpow_natCast, ← zpow_add₀ (by norm_num)]
      congr 1
      omega
    rw [← hpower]
    exact pow_magnitude_le hden hvalue
  obtain ⟨d, hd⟩ : ∃ d, i.value * Nat.pow 10 (-s).toNat / (i.den * Nat.pow 10 s.toNat) = d :=
    ⟨_, rfl⟩
  have hgrid : d * 10 ^ s ≤ i.center ∧ i.center < ((d + 1 : Nat) : Rat) * 10 ^ s := by
    rw [← hd]
    exact grid_bounds hden s
  simp only [atLength?, hs, hd]
  split
  · exact ⟨_, rfl⟩
  · exact ⟨_, rfl⟩
  · exact ⟨_, rfl⟩
  · next hleft hright =>
    exfalso
    -- Both neighbours outside would leave an interval narrower than the grid.
    have hbelow := (beyond_of_not_contains hden hleft).resolve_right (by linarith)
    have habove := (beyond_of_not_contains hden hright).resolve_left (by linarith)
    push_cast at habove
    linarith

end Width

end Binary

end Interval

/-- The shortest decimal of a double is rounded to the double. -/
theorem roundsTo_shortest {m : Nat} {q : Int} (h : IsDouble m q) :
    RoundsTo m q ((shortest m q).digits * 10 ^ (shortest m q).scale) := by
  apply Interval.roundsTo_of_contains h.pos
  rw [shortest, Interval.shortest]
  cases hfound : (List.range 17).findSome? fun n => (Interval.ofBinary m q).atLength? (n + 1) with
  | some d =>
    obtain ⟨n, -, hn⟩ := List.exists_of_findSome?_eq_some hfound
    exact Interval.contains_of_atLength? hn
  | none =>
    obtain ⟨d, hd⟩ := Interval.exists_of_atLength? h
    have hnone := List.findSome?_eq_none_iff.1 hfound 16 (by simp)
    rw [hd] at hnone
    cases hnone

end LayeredConfig.Decimal
