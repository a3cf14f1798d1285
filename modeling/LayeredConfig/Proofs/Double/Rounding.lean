import LayeredConfig.Proofs.Double.Packing

/-!
# Rounding to the nearest double

Rounding works on a mantissa and what is known of the number behind it, which is
one of four things: it is the mantissa, it is less or more than half way to the
next one, or it is just half way. `Describes` says this of a rational number,
and everything rounding does to the mantissa preserves it. So the mantissa that
is left at the end describes the number in units of the double, and it is the
nearest one.

`RoundsTo m q v` says that `v` lies in the interval around the double
`m * 2 ^ q` of which all points are nearest to it. Such a number is rounded to
that double (`roundWithAccuracy_eq`). There is one place where the shift stops
elsewhere than at `q`: below a power of two, where the doubles lie twice as
close. There the mantissa is rounded up to 53 bits and a one too many, and is
shifted once more.
-/

namespace LayeredConfig.Decimal

open Float.Model (totalExponent)
open Float.Model.Format (binary64)
open Float.Model.UnpackedFloat

/-- Where a number lies between a mantissa and the next one. -/
def Describes (mantissa : Nat) (v : Rat) : Accuracy → Prop
  | .exact => v = mantissa
  | .inexact .lt => mantissa < v ∧ v < mantissa + 1 / 2
  | .inexact .eq => v = mantissa + 1 / 2
  | .inexact .gt => mantissa + 1 / 2 < v ∧ v < mantissa + 1

namespace Describes

variable {m r : Nat} {v : Rat} {accuracy : Accuracy}

theorem le (h : Describes m v accuracy) : m ≤ v := by
  rcases accuracy with _ | (_ | _ | _) <;> simp only [Describes] at h <;> linarith

theorem lt_add_one (h : Describes m v accuracy) : v < m + 1 := by
  rcases accuracy with _ | (_ | _ | _) <;> simp only [Describes] at h <;> linarith

theorem eq_or_eq_add_one (h : Describes m v accuracy) (hlower : r - 1 / 2 ≤ v)
    (hupper : v ≤ r + 1 / 2) : r = m ∨ r = m + 1 := by
  have hle : (m : Rat) < (r + 1 : Nat) := by
    push_cast
    linarith [h.le]
  have hge : (r : Rat) < (m + 2 : Nat) := by
    push_cast
    linarith [h.lt_add_one]
  rw [Nat.cast_lt] at hle hge
  omega

theorem roundToNearestEven_eq (h : Describes m v accuracy) (hlower : r - 1 / 2 ≤ v)
    (hupper : v ≤ r + 1 / 2) (hodd : r % 2 = 1 → v ≠ r - 1 / 2 ∧ v ≠ r + 1 / 2) :
    accuracy.roundToNearestEven m = r := by
  have hnear := h.eq_or_eq_add_one hlower hupper
  match accuracy, h with
  | .exact, h =>
    rcases hnear with rfl | rfl
    · rfl
    · simp only [Describes] at h
      push_cast at hlower
      linarith
  | .inexact .lt, ⟨_, h⟩ =>
    rcases hnear with rfl | rfl
    · rfl
    · push_cast at hlower
      linarith
  | .inexact .eq, h =>
    simp only [Describes] at h
    rcases hnear with rfl | rfl
    · have heven : r % 2 = 0 := by
        by_contra hne
        exact (hodd (by omega)).2 h
      simp [Accuracy.roundToNearestEven, heven]
    · have hone : m % 2 = 1 := by
        by_contra hne
        refine (hodd (by omega)).1 ?_
        push_cast
        linarith
      simp [Accuracy.roundToNearestEven, hone]
  | .inexact .gt, ⟨h, _⟩ =>
    rcases hnear with rfl | rfl
    · linarith
    · rfl

theorem of_fraction (num : Nat) {den : Nat} (hden : 0 < den) :
    Describes (num / den) (num / den : Rat) (accuracyOfFraction (num % den) den) := by
  have hpos : (0 : Rat) < den := by exact_mod_cast hden
  have hsplit : (num : Rat) = den * (num / den : Nat) + (num % den : Nat) := by
    exact_mod_cast (Nat.div_add_mod num den).symm
  have hvalue : (num : Rat) / den = (num / den : Nat) + ((num % den : Nat) : Rat) / den := by
    rw [hsplit]
    field_simp
  have hbelow : ((num % den : Nat) : Rat) / den < 1 := by
    rw [div_lt_one hpos]
    exact_mod_cast Nat.mod_lt num hden
  rw [hvalue, accuracyOfFraction]
  generalize num % den = rest at hbelow
  by_cases hzero : rest = 0
  · simp [hzero, Describes]
  · have habove : (0 : Rat) < (rest : Rat) / den :=
      div_pos (by exact_mod_cast Nat.pos_of_ne_zero hzero) hpos
    rw [if_neg hzero]
    rcases lt_trichotomy (2 * rest) den with hcompare | hcompare | hcompare
    · have hhalf : (rest : Rat) / den < 1 / 2 := by
        rw [div_lt_div_iff₀ hpos two_pos]
        exact_mod_cast (by omega : rest * 2 < 1 * den)
      rw [Nat.compare_eq_lt.2 hcompare]
      exact ⟨by linarith, by linarith⟩
    · have hhalf : (rest : Rat) / den = 1 / 2 := by
        rw [div_eq_div_iff hpos.ne' two_ne_zero]
        exact_mod_cast (by omega : rest * 2 = 1 * den)
      rw [Nat.compare_eq_eq.2 hcompare]
      simp only [Describes, hhalf]
    · have hhalf : 1 / 2 < (rest : Rat) / den := by
        rw [div_lt_div_iff₀ two_pos hpos]
        exact_mod_cast (by omega : 1 * den < rest * 2)
      rw [Nat.compare_eq_gt.2 hcompare]
      exact ⟨by linarith, by linarith⟩

end Describes

/-- What a mantissa with its two residual bits stands for. -/
def Holds (em : ExtendedMantissa) (v : Rat) : Prop :=
  Describes em.mantissa v em.accuracy

namespace Holds

variable {em : ExtendedMantissa} {v : Rat}

theorem ofMantissaAndAccuracy {m : Nat} {accuracy : Accuracy} (h : Describes m v accuracy) :
    Holds (.ofMantissaAndAccuracy m accuracy) v := by
  rcases accuracy with _ | (_ | _ | _) <;> exact h

theorem eq_of_no_residue (h : Holds em v) (hresidue : (em.roundBit || em.stickyBit) = false) :
    v = em.mantissa := by
  obtain ⟨m, round, sticky⟩ := em
  obtain ⟨rfl, rfl⟩ := Bool.or_eq_false_iff.1 hresidue
  exact h

theorem lt_of_residue (h : Holds em v) (hresidue : (em.roundBit || em.stickyBit) = true) :
    em.mantissa < v := by
  obtain ⟨m, round, sticky⟩ := em
  cases round <;> cases sticky <;> simp only [Holds, Describes, ExtendedMantissa.accuracy] at h
  · cases hresidue
  · exact h.1
  · linarith
  · linarith

/-- Nothing is lost when a bit is shifted out: it is the new round bit, and the old round bit joins
the sticky bit. -/
theorem shiftRightOne (h : Holds em v) : Holds em.shiftRightOne (v / 2) := by
  have hsplit : (em.mantissa : Rat) = 2 * (em.mantissa / 2 : Nat) + (em.mantissa % 2 : Nat) := by
    exact_mod_cast (Nat.div_add_mod em.mantissa 2).symm
  have hbit : em.mantissa % 2 = 0 ∨ em.mantissa % 2 = 1 := by omega
  have hupper := Describes.lt_add_one h
  cases hresidue : (em.roundBit || em.stickyBit) with
  | false =>
    have hvalue := h.eq_of_no_residue hresidue
    rcases hbit with hbit | hbit
    · rw [hbit, Nat.cast_zero] at hsplit
      simp only [Holds, ExtendedMantissa.shiftRightOne, hbit, hresidue]
      show v / 2 = _
      linarith
    · rw [hbit, Nat.cast_one] at hsplit
      simp only [Holds, ExtendedMantissa.shiftRightOne, hbit, hresidue]
      show v / 2 = _
      linarith
  | true =>
    have hlower := h.lt_of_residue hresidue
    rcases hbit with hbit | hbit
    · rw [hbit, Nat.cast_zero] at hsplit
      simp only [Holds, ExtendedMantissa.shiftRightOne, hbit, hresidue]
      exact ⟨by linarith, by linarith⟩
    · rw [hbit, Nat.cast_one] at hsplit
      simp only [Holds, ExtendedMantissa.shiftRightOne, hbit, hresidue]
      exact ⟨by linarith, by linarith⟩

theorem shiftRight (h : Holds em v) (n : Nat) : Holds (em >>> n) (v / 2 ^ n) := by
  induction n with
  | zero =>
    rw [pow_zero, div_one]
    exact h
  | succ n ih =>
    have hstep := ih.shiftRightOne
    rw [div_div, ← pow_succ] at hstep
    exact hstep

end Holds

/-- The numbers that are rounded to `m * 2 ^ q`. Below a power of two the neighbour is half as far
away, and the two ends belong to an even significand only. -/
structure RoundsTo (m : Nat) (q : Int) (v : Rat) : Prop where
  lower : (m - 1 / 2) * 2 ^ q ≤ v
  upper : v ≤ (m + 1 / 2) * 2 ^ q
  binade : m = 2 ^ 52 → q ≠ -1074 → (m - 1 / 4) * 2 ^ q ≤ v
  odd : m % 2 = 1 → v ≠ (m - 1 / 2) * 2 ^ q ∧ v ≠ (m + 1 / 2) * 2 ^ q

theorem RoundsTo.self (m : Nat) (q : Int) : RoundsTo m q (m * 2 ^ q) := by
  have hunit : (0 : Rat) < 2 ^ q := by positivity
  refine ⟨by linarith, by linarith, fun _ _ => by linarith, fun _ => ⟨?_, ?_⟩⟩
  · intro heq
    linarith
  · intro heq
    linarith

theorem targetExponent_eq (n : Int) : binary64.targetExponent n = max (n - 53) (-1074) := rfl

section Target

variable {m : Nat} {e t : Int} {accuracy : Accuracy} {v : Rat}

theorem shiftToTargetExponent_eq (htarget : binary64.targetExponent (totalExponent m e) = t)
    (hle : e ≤ t) (h : Describes m (v / 2 ^ e) accuracy) :
    ∃ em, shiftToTargetExponent binary64 m e accuracy = (em, t) ∧ Holds em (v / 2 ^ t) := by
  refine ⟨ExtendedMantissa.ofMantissaAndAccuracy m accuracy >>> (t - e).toNat, ?_, ?_⟩
  · have hsum : e + (t - e).toNat = t := by omega
    rw [shiftToTargetExponent, htarget]
    show (_, e + ((t - e).toNat : Int)) = _
    rw [hsum]
  · have hshift := (Holds.ofMantissaAndAccuracy h).shiftRight (t - e).toNat
    have hpower : (2 : Rat) ^ e * 2 ^ (t - e).toNat = 2 ^ t := by
      rw [← zpow_natCast, ← zpow_add₀ two_ne_zero]
      congr 1
      omega
    rw [div_div, hpower] at hshift
    exact hshift

theorem lt_of_target (htarget : binary64.targetExponent (totalExponent m e) = t)
    (h : Describes m (v / 2 ^ e) accuracy) : v < 2 ^ 53 * 2 ^ t := by
  have hnumber : v < (m + 1) * 2 ^ e := by
    have hlt := h.lt_add_one
    rwa [div_lt_iff₀ (by positivity)] at hlt
  have hbits : (m + 1 : Rat) ≤ 2 ^ (m.log2 + 1) := by
    exact_mod_cast Nat.lt_log2_self
  have hexponent : (m.log2 + 1 : Nat) + e ≤ 53 + t := by
    rw [targetExponent_eq, totalExponent] at htarget
    omega
  calc v < (m + 1) * 2 ^ e := hnumber
    _ ≤ 2 ^ (m.log2 + 1) * 2 ^ e := by gcongr
    _ = 2 ^ ((m.log2 + 1 : Nat) + e) := by rw [zpow_add₀ two_ne_zero, zpow_natCast]
    _ ≤ 2 ^ (53 + t) := zpow_le_zpow_right₀ one_le_two hexponent
    _ = 2 ^ 53 * 2 ^ t := zpow_add₀ two_ne_zero 53 t

theorem le_of_target (htarget : binary64.targetExponent (totalExponent m e) = t) (hle : e ≤ t)
    (h : Describes m (v / 2 ^ e) accuracy) (hleast : t ≠ -1074) : 2 ^ 52 * 2 ^ t ≤ v := by
  rw [targetExponent_eq, totalExponent] at htarget
  have hexponent : 52 + t = m.log2 + e := by omega
  have hpos : m ≠ 0 := by
    rintro rfl
    rw [Nat.log2_zero] at hexponent
    omega
  have hnumber : m * 2 ^ e ≤ v := by
    have hle := h.le
    rwa [le_div_iff₀ (by positivity)] at hle
  have hbits : (2 : Rat) ^ m.log2 ≤ m := by
    exact_mod_cast Nat.log2_self_le hpos
  calc (2 : Rat) ^ 52 * 2 ^ t = 2 ^ (52 + t) := (zpow_add₀ two_ne_zero 52 t).symm
    _ = 2 ^ (m.log2 : Int) * 2 ^ e := by rw [hexponent, zpow_add₀ two_ne_zero]
    _ ≤ m * 2 ^ e := by
      rw [zpow_natCast]
      gcongr
    _ ≤ v := hnumber

end Target

section Nearest

variable {m : Nat} {q t : Int} {v : Rat}

theorem IsDouble.target_eq (h : IsDouble m q) :
    binary64.targetExponent (totalExponent m q) = q := by
  have hupper : m.log2 < 53 := (Nat.log2_lt h.pos.ne').2 h.lt
  have hleast := h.least
  rw [targetExponent_eq, totalExponent]
  rcases h.normal with heq | hnormal
  · omega
  · have hlower : 52 ≤ m.log2 := (Nat.le_log2 h.pos.ne').2 hnormal
    omega

/-- A number that is rounded to `m * 2 ^ q` has `q` for its target exponent, unless it lies below
the power of two that it is rounded to. -/
theorem RoundsTo.target_eq (h : RoundsTo m q v) (hdouble : IsDouble m q) (hleast : -1074 ≤ t)
    (hlt : v < 2 ^ 53 * 2 ^ t) (hge : t ≠ -1074 → 2 ^ 52 * 2 ^ t ≤ v) :
    t = q ∨ q = t + 1 ∧ m = 2 ^ 52 := by
  have hunit : (0 : Rat) < 2 ^ q := by positivity
  have hm : (m : Rat) + 1 ≤ 2 ^ 53 := by exact_mod_cast hdouble.lt
  have hupper : v ≤ (2 ^ 53 - 1 / 2) * 2 ^ q :=
    h.upper.trans (by gcongr; linarith)
  have hlower : ∀ bound : Rat, bound ≤ m → (bound - 1 / 2) * 2 ^ q ≤ v := by
    intro bound hbound
    exact le_trans (by gcongr) h.lower
  -- With a larger target exponent the number lies above all that is rounded to `m * 2 ^ q`,
  -- with one that is smaller by two or more it lies below.
  have hnotAbove : t ≤ q := by
    by_contra! hgt
    have hpower : (2 : Rat) ^ q * 2 ≤ 2 ^ t := by
      rw [← zpow_add_one₀ two_ne_zero]
      exact zpow_le_zpow_right₀ one_le_two hgt
    have hlarge := hge (by have := hdouble.least; omega)
    linarith
  rcases hnotAbove.eq_or_lt with heq | hless
  · exact .inl heq
  have hnormal := hdouble.normal.resolve_left (by omega)
  have hnext : q = t + 1 := by
    by_contra hne
    have hpower : (2 : Rat) ^ t * 4 ≤ 2 ^ q := by
      rw [show (4 : Rat) = 2 ^ (2 : Int) by norm_num, ← zpow_add₀ two_ne_zero]
      exact zpow_le_zpow_right₀ one_le_two (by omega)
    have hnumber := hlower (2 ^ 52) (by exact_mod_cast hnormal)
    linarith
  refine .inr ⟨hnext, ?_⟩
  by_contra hne
  have hlarger : (2 : Rat) ^ 52 + 1 ≤ m := by
    exact_mod_cast (by omega : 2 ^ 52 + 1 ≤ m)
  have hnumber := hlower _ hlarger
  rw [hnext, zpow_add_one₀ two_ne_zero] at hnumber
  have hsmall : (0 : Rat) < 2 ^ t := by positivity
  linarith

/-- The mantissa that the first shift leaves is the significand, or twice the significand when
rounding carries into the next power of two. -/
theorem RoundsTo.roundedMantissa (h : RoundsTo m q v) (hdouble : IsDouble m q)
    {em : ExtendedMantissa} (hem : Holds em (v / 2 ^ t)) (hleast : -1074 ≤ t)
    (htarget : t = q ∨ q = t + 1 ∧ m = 2 ^ 52) (hlt : v < 2 ^ 53 * 2 ^ t) :
    (em.roundedMantissa : Rat) * 2 ^ t = m * 2 ^ q ∧
      binary64.targetExponent (totalExponent em.roundedMantissa t) = q := by
  have hunit : (0 : Rat) < 2 ^ t := by positivity
  rcases htarget with rfl | ⟨rfl, rfl⟩
  · have hrounded : em.roundedMantissa = m := by
      apply Describes.roundToNearestEven_eq hem
      · rw [le_div_iff₀ hunit]
        exact h.lower
      · rw [div_le_iff₀ hunit]
        exact h.upper
      · intro hodd
        rw [Ne, Ne, div_eq_iff hunit.ne', div_eq_iff hunit.ne']
        exact h.odd hodd
    rw [hrounded]
    exact ⟨rfl, hdouble.target_eq⟩
  · have hhalf : ((2 ^ 52 : Nat) - 1 / 4) * (2 : Rat) ^ (t + 1) ≤ v := h.binade rfl (by omega)
    rw [zpow_add_one₀ two_ne_zero] at hhalf
    push_cast at hhalf
    have hrounded : em.roundedMantissa = 2 ^ 53 := by
      apply Describes.roundToNearestEven_eq hem
      · rw [le_div_iff₀ hunit]
        push_cast
        linarith
      · rw [div_le_iff₀ hunit]
        push_cast
        linarith
      · intro hodd
        omega
    rw [hrounded]
    constructor
    · rw [zpow_add_one₀ two_ne_zero]
      push_cast
      ring
    · rw [targetExponent_eq, totalExponent, Nat.log2_two_pow]
      omega

theorem Holds.mantissa_eq {em : ExtendedMantissa} {n : Nat} (h : Holds em n) : em.mantissa = n := by
  have hlower : em.mantissa ≤ n := by exact_mod_cast Describes.le h
  have hupper : n < em.mantissa + 1 := by exact_mod_cast Describes.lt_add_one h
  omega

/-- A number in reach of a double is rounded to it, if its mantissa has enough bits. -/
theorem roundWithAccuracy_eq (hdouble : IsDouble m q) (h : RoundsTo m q v) {n : Nat} {e : Int}
    {accuracy : Accuracy} (hvalue : Describes n (v / 2 ^ e) accuracy)
    (henough : e ≤ binary64.targetExponent (totalExponent n e)) (sign : Sign) :
    roundWithAccuracy binary64 sign n e accuracy = .finite sign m q hdouble.pos := by
  obtain ⟨t, htarget⟩ : ∃ t, binary64.targetExponent (totalExponent n e) = t := ⟨_, rfl⟩
  rw [htarget] at henough
  have hlt := lt_of_target htarget hvalue
  have hleast : -1074 ≤ t := by
    rw [targetExponent_eq] at htarget
    omega
  have hplace := h.target_eq hdouble hleast hlt (le_of_target htarget henough hvalue)
  have hle : t ≤ q := by
    rcases hplace with heq | ⟨heq, -⟩
    · omega
    · omega
  obtain ⟨em, hfirst, hem⟩ := shiftToTargetExponent_eq htarget henough hvalue
  obtain ⟨hnumber, hagain⟩ := h.roundedMantissa hdouble hem hleast hplace hlt
  have hexact : Describes em.roundedMantissa ((m : Rat) * 2 ^ q / 2 ^ t) .exact := by
    show _ = _
    rw [← hnumber, mul_div_cancel_right₀]
    positivity
  obtain ⟨final, hsecond, hfinal⟩ := shiftToTargetExponent_eq hagain hle hexact
  rw [mul_div_cancel_right₀ _ (by positivity)] at hfinal
  have hmantissa := hfinal.mantissa_eq
  have hne : m ≠ 0 := hdouble.pos.ne'
  simp only [roundWithAccuracy, hfirst, hsecond, hmantissa, dif_neg hne]

end Nearest

end LayeredConfig.Decimal
