import LayeredConfig.Proofs.Double.Shortest

/-!
# The double next to a decimal

A decimal is turned into a double in one of three ways: digits that fit the
significand are multiplied with or divided by a power of ten that is a double
itself, other decimals with a positive exponent are multiplied out, and the
rest is a quotient of natural numbers. Whichever way is taken, one product or
one quotient is rounded, and it is the decimal itself. So the outcome is the
double that the decimal is rounded to (`nearestDouble_eq`).

Decimals that are too large or too small for any double are told by their
length and exponent alone. None of them is rounded to a double (`size_le`,
`le_size`).
-/

namespace LayeredConfig.Decimal

open Float.Model (totalExponent)
open Float.Model.Format (binary64)
open Float.Model.UnpackedFloat

section Operations

variable {m m₁ m₂ : Nat} {q e₁ e₂ : Int} (h₁ : 0 < m₁) (h₂ : 0 < m₂)

theorem mul_eq (hdouble : IsDouble m q) (h : RoundsTo m q (m₁ * 2 ^ e₁ * (m₂ * 2 ^ e₂)))
    (hbits : 2 ^ 52 ≤ m₁ * m₂) :
    mul binary64 (.finite .positive m₁ e₁ h₁) (.finite .positive m₂ e₂ h₂) =
      .finite .positive m q hdouble.pos := by
  have hlog : 52 ≤ (m₁ * m₂).log2 := (Nat.le_log2 (by omega)).2 hbits
  apply roundWithAccuracy_eq hdouble h
  · show _ = _
    rw [zpow_add₀ two_ne_zero, mul_mul_mul_comm, mul_div_cancel_right₀ _ (by positivity),
      Nat.cast_mul]
  · rw [targetExponent_eq, totalExponent]
    omega

/-- A quotient has as many bits as the dividend has more than the divisor, or one less. -/
theorem log2_shiftLeft_le (h₁ : 0 < m₁) (h₂ : 0 < m₂) (shift : Nat) :
    m₁.log2 + shift ≤ (m₁ <<< shift / m₂).log2 + m₂.log2 + 1 := by
  rw [Nat.shiftLeft_eq]
  generalize hn : m₁ * 2 ^ shift / m₂ = n
  have hlower : 2 ^ (m₁.log2 + shift) ≤ m₁ * 2 ^ shift := by
    rw [pow_add]
    exact Nat.mul_le_mul_right _ (Nat.log2_self_le h₁.ne')
  have hupper : m₁ * 2 ^ shift < 2 ^ (n.log2 + 1 + (m₂.log2 + 1)) :=
    calc m₁ * 2 ^ shift < m₂ * (n + 1) := by
          rw [← hn]
          exact Nat.lt_mul_div_succ _ h₂
      _ ≤ 2 ^ (m₂.log2 + 1) * 2 ^ (n.log2 + 1) :=
        Nat.mul_le_mul Nat.lt_log2_self.le Nat.lt_log2_self
      _ = 2 ^ (n.log2 + 1 + (m₂.log2 + 1)) := by rw [← pow_add, add_comm]
  have hexponent := (Nat.pow_lt_pow_iff_right (by decide)).1 (hlower.trans_lt hupper)
  omega

theorem div_eq (hdouble : IsDouble m q) (h : RoundsTo m q (m₁ * 2 ^ e₁ / (m₂ * 2 ^ e₂))) :
    div binary64 (.finite .positive m₁ e₁ h₁) (.finite .positive m₂ e₂ h₂) =
      .finite .positive m q hdouble.pos := by
  obtain ⟨t, ht⟩ : ∃ t, min (e₁ - e₂)
    (binary64.targetExponent (totalExponent m₁ e₁ - totalExponent m₂ e₂)) = t := ⟨_, rfl⟩
  obtain ⟨shift, hshift⟩ : ∃ shift, (e₁ - e₂ - t).toNat = shift := ⟨_, rfl⟩
  have hdiv : div binary64 (.finite .positive m₁ e₁ h₁) (.finite .positive m₂ e₂ h₂) =
      roundWithAccuracy binary64 .positive (m₁ <<< shift / m₂) t
        (accuracyOfFraction (m₁ <<< shift % m₂) m₂) := by
    rw [← hshift, ← ht]
    rfl
  rw [hdiv]
  have hle : t ≤ e₁ - e₂ := ht ▸ min_le_left _ _
  apply roundWithAccuracy_eq hdouble h
  · have hpower : (2 : Rat) ^ shift = 2 ^ e₁ / 2 ^ e₂ / 2 ^ t := by
      rw [← zpow_sub₀ two_ne_zero, ← zpow_sub₀ two_ne_zero, ← zpow_natCast]
      congr 1
      omega
    have hvalue : (m₁ * 2 ^ e₁ / (m₂ * 2 ^ e₂) / 2 ^ t : Rat) = (m₁ <<< shift : Nat) / m₂ := by
      rw [Nat.shiftLeft_eq, Nat.cast_mul, Nat.cast_pow, Nat.cast_ofNat, hpower]
      field_simp
    rw [hvalue]
    exact Describes.of_fraction _ h₂
  · have hbits := log2_shiftLeft_le h₁ h₂ shift
    have htarget : t ≤ binary64.targetExponent (totalExponent m₁ e₁ - totalExponent m₂ e₂) :=
      ht ▸ min_le_right _ _
    rw [targetExponent_eq, totalExponent] at htarget ⊢
    rw [totalExponent] at htarget
    omega

end Operations

theorem ten_zpow_of_nonneg {e : Int} (he : 0 ≤ e) : (10 : Rat) ^ e = 10 ^ e.natAbs := by
  rw [← zpow_natCast]
  congr 1
  omega

theorem ten_zpow_of_neg {e : Int} (he : e < 0) : (10 : Rat) ^ e = (10 ^ e.natAbs)⁻¹ := by
  rw [← zpow_natCast, ← zpow_neg]
  congr 1
  omega

theorem two_zpow_le_ten_zpow {e : Int} (he : 0 ≤ e) : (2 : Rat) ^ e ≤ 10 ^ e := by
  lift e to Nat using he
  rw [zpow_natCast, zpow_natCast]
  gcongr
  norm_num

theorem ten_zpow_le_two_zpow {e : Int} (he : e ≤ 0) : (10 : Rat) ^ e ≤ 2 ^ e := by
  have hinv := two_zpow_le_ten_zpow (neg_nonneg.2 he)
  rw [zpow_neg, zpow_neg] at hinv
  exact (inv_le_inv₀ (by positivity) (by positivity)).1 hinv

/-- Beyond 310 digits a decimal is beyond the range of doubles. -/
theorem two_zpow_le_limit : (2 : Rat) ^ (1024 : Int) ≤ 10 ^ (310 : Int) :=
  calc (2 : Rat) ^ (1024 : Int) ≤ 2 ^ (205 * 5 : Int) :=
        zpow_le_zpow_right₀ one_le_two (by norm_num)
    _ = (2 ^ (205 : Int)) ^ (5 : Int) := zpow_mul 2 205 5
    _ ≤ (10 ^ (62 : Int)) ^ (5 : Int) :=
      zpow_le_zpow_left₀ (by norm_num) (by norm_num) (by norm_num)
    _ = 10 ^ (62 * 5 : Int) := (zpow_mul 10 62 5).symm

/-- With 330 zeros behind the point it is less than half of the least one. -/
theorem limit_le_two_zpow : (10 : Rat) ^ (-330 : Int) ≤ 2 ^ (-1075 : Int) := by
  have hpower : (2 : Rat) ^ (1075 : Int) ≤ 10 ^ (330 : Int) :=
    calc (2 : Rat) ^ (1075 : Int) = (2 ^ (215 : Int)) ^ (5 : Int) := zpow_mul 2 215 5
      _ ≤ (10 ^ (66 : Int)) ^ (5 : Int) :=
        zpow_le_zpow_left₀ (by norm_num) (by norm_num) (by norm_num)
      _ = 10 ^ (330 : Int) := (zpow_mul 10 66 5).symm
  rw [zpow_neg, zpow_neg]
  exact (inv_le_inv₀ (by positivity) (by positivity)).2 hpower

section Bounds

variable {m : Nat} {q : Int} {v : Rat} (hdouble : IsDouble m q)

include hdouble

theorem RoundsTo.lt_two_zpow (h : RoundsTo m q v) : v < 2 ^ (1024 : Int) := by
  have hm : (m : Rat) + 1 ≤ 2 ^ 53 := by exact_mod_cast hdouble.lt
  have hmost := hdouble.most
  calc v ≤ (m + 1 / 2) * 2 ^ q := h.upper
    _ < 2 ^ (53 : Int) * 2 ^ q := by
      apply mul_lt_mul_of_pos_right _ (by positivity)
      rw [show (2 : Rat) ^ (53 : Int) = 2 ^ 53 from zpow_natCast 2 53]
      linarith
    _ = 2 ^ (53 + q) := (zpow_add₀ two_ne_zero 53 q).symm
    _ ≤ 2 ^ (1024 : Int) := zpow_le_zpow_right₀ one_le_two (by omega)

theorem RoundsTo.two_zpow_le (h : RoundsTo m q v) : 2 ^ (-1075 : Int) ≤ v := by
  have hm : (1 : Rat) ≤ m := by exact_mod_cast hdouble.pos
  have hleast := hdouble.least
  calc (2 : Rat) ^ (-1075 : Int) ≤ 2 ^ (-1 + q) := zpow_le_zpow_right₀ one_le_two (by omega)
    _ = 1 / 2 * 2 ^ q := by rw [zpow_add₀ two_ne_zero, zpow_neg_one, one_div]
    _ ≤ (m - 1 / 2) * 2 ^ q := by
      gcongr
      linarith
    _ ≤ v := h.lower

end Bounds

section Scientific

variable {m d : Nat} {q e : Int} (hdouble : IsDouble m q) (h : RoundsTo m q (d * 10 ^ e))

include hdouble h

theorem RoundsTo.digits_pos : 0 < d := by
  apply Nat.pos_of_ne_zero
  rintro rfl
  have hreach := h.two_zpow_le hdouble
  have hpos : (0 : Rat) < 2 ^ (-1075 : Int) := by positivity
  rw [Nat.cast_zero, zero_mul] at hreach
  linarith

theorem RoundsTo.exponent_le : e ≤ 1024 := by
  by_contra! hlarge
  have hreach := h.lt_two_zpow hdouble
  have hd : (1 : Rat) ≤ d := by exact_mod_cast h.digits_pos hdouble
  have hpower : (2 : Rat) ^ (1024 : Int) ≤ 10 ^ e :=
    (zpow_le_zpow_right₀ one_le_two (by omega)).trans (two_zpow_le_ten_zpow (by omega))
  have hnumber : (10 : Rat) ^ e ≤ d * 10 ^ e := le_mul_of_one_le_left (by positivity) hd
  linarith

theorem RoundsTo.le_exponent : -(1076 + d.log2 : Int) ≤ e := by
  by_contra! hsmall
  have hreach := h.two_zpow_le hdouble
  have hd : (d : Rat) < 2 ^ ((d.log2 : Int) + 1) := by
    rw [show (d.log2 : Int) + 1 = (d.log2 + 1 : Nat) by norm_num, zpow_natCast]
    exact_mod_cast Nat.lt_log2_self
  have hnumber : d * (10 : Rat) ^ e < 2 ^ (-1075 : Int) :=
    calc d * (10 : Rat) ^ e ≤ d * 2 ^ e := by
          gcongr
          exact ten_zpow_le_two_zpow (by omega)
      _ < 2 ^ ((d.log2 : Int) + 1) * 2 ^ e := by gcongr
      _ = 2 ^ ((d.log2 : Int) + 1 + e) := (zpow_add₀ two_ne_zero _ _).symm
      _ ≤ 2 ^ (-1075 : Int) := zpow_le_zpow_right₀ one_le_two (by omega)
  linarith

theorem RoundsTo.size_le : (Nat.toDigits 10 d).length + e ≤ 310 := by
  by_contra! hlarge
  have hpos := h.digits_pos hdouble
  have hreach := h.lt_two_zpow hdouble
  have hdigits : (10 : Rat) ^ ((Nat.toDigits 10 d).length - 1) ≤ d := by
    exact_mod_cast (length_toDigits_bounds hpos).1
  have hlength : 0 < (Nat.toDigits 10 d).length := Nat.length_toDigits_pos
  have hnumber : (10 : Rat) ^ (310 : Int) ≤ d * 10 ^ e :=
    calc (10 : Rat) ^ (310 : Int) ≤ 10 ^ (((Nat.toDigits 10 d).length - 1 : Nat) + e) :=
          zpow_le_zpow_right₀ (by norm_num) (by omega)
      _ = 10 ^ ((Nat.toDigits 10 d).length - 1) * 10 ^ e := by
        rw [zpow_add₀ (by norm_num), zpow_natCast]
      _ ≤ d * 10 ^ e := by gcongr
  exact (two_zpow_le_limit.trans hnumber).not_gt hreach

theorem RoundsTo.le_size : -330 ≤ (Nat.toDigits 10 d).length + e := by
  by_contra! hsmall
  have hpos := h.digits_pos hdouble
  have hreach := h.two_zpow_le hdouble
  have hdigits : (d : Rat) < 10 ^ (Nat.toDigits 10 d).length := by
    exact_mod_cast (length_toDigits_bounds hpos).2
  have hnumber : d * (10 : Rat) ^ e < 10 ^ (-330 : Int) :=
    calc d * (10 : Rat) ^ e < 10 ^ (Nat.toDigits 10 d).length * 10 ^ e := by gcongr
      _ = 10 ^ ((Nat.toDigits 10 d).length + e) := by rw [zpow_add₀ (by norm_num), zpow_natCast]
      _ ≤ 10 ^ (-330 : Int) := zpow_le_zpow_right₀ (by norm_num) (by omega)
  exact (hreach.trans_lt hnumber).not_ge limit_le_two_zpow

theorem ofScientific_eq :
    Float.Model.UnpackedFloat.ofScientific binary64 d e =
      .finite .positive m q hdouble.pos := by
  have hpos := h.digits_pos hdouble
  have hupper := h.exponent_le hdouble
  have hlower := h.le_exponent hdouble
  have hnotlarge : ¬e > 2 ^ 11 := by omega
  have hnotsmall : ¬e < -(2 ^ 11 + (d.log2 : Int)) := by omega
  rw [Float.Model.UnpackedFloat.ofScientific, dif_neg hpos.ne', if_neg hnotlarge, if_neg hnotsmall]
  split
  · next he =>
    have habs : e.toNat = e.natAbs := by omega
    -- The shift only makes room for enough bits.
    have hvalue : ((d <<< 53 : Nat) * 2 ^ (-53 : Int) * ((10 ^ e.toNat : Nat) * 2 ^ (0 : Int)) :
        Rat) = d * 10 ^ e := by
      rw [ten_zpow_of_nonneg he, habs, Nat.shiftLeft_eq]
      push_cast
      norm_num
      ring
    have hbits : 2 ^ 52 ≤ d <<< 53 * 10 ^ e.toNat := by
      have hshifted : 2 ^ 52 ≤ d <<< 53 := by
        rw [Nat.shiftLeft_eq]
        omega
      exact hshifted.trans (Nat.le_mul_of_pos_right _ (Nat.pow_pos (by decide)))
    rw [← hvalue] at h
    exact mul_eq _ _ hdouble h hbits
  · next he =>
    have habs : (-e).toNat = e.natAbs := by omega
    have hvalue : (d * 2 ^ (0 : Int) / ((10 ^ (-e).toNat : Nat) * 2 ^ (0 : Int)) : Rat) =
        d * 10 ^ e := by
      rw [ten_zpow_of_neg (not_le.1 he), habs]
      push_cast
      ring
    rw [← hvalue] at h
    exact div_eq _ _ hdouble h

end Scientific

section Word

variable {d k : Nat} (hpos : 0 < d) (hk : d.log2 + k = 52)

include hpos hk

theorem isDouble_mul_two_pow : IsDouble (d * 2 ^ k) (-k) where
  pos := Nat.mul_pos hpos (Nat.two_pow_pos k)
  lt := by
    rw [show 53 = d.log2 + 1 + k by omega, pow_add]
    exact Nat.mul_lt_mul_of_pos_right Nat.lt_log2_self (Nat.two_pow_pos k)
  least := by omega
  most := by omega
  normal := by
    right
    rw [← hk, pow_add]
    exact Nat.mul_le_mul_right _ (Nat.log2_self_le hpos.ne')

theorem round_eq :
    Float.Model.UnpackedFloat.round binary64 .positive d 0 =
      .finite .positive (d * 2 ^ k) (-k) (isDouble_mul_two_pow hpos hk).pos := by
  have hdouble := isDouble_mul_two_pow hpos hk
  have htarget : binary64.targetExponent (totalExponent d 0) = -k := by
    rw [targetExponent_eq, totalExponent]
    omega
  have hshift : ((0 : Int) - -k).toNat = k := by omega
  simp only [Float.Model.UnpackedFloat.round, htarget, decreaseExponent, hshift, Nat.shiftLeft_eq]
  rw [zero_sub]
  apply roundWithAccuracy_eq hdouble (.self _ _)
  · show _ = _
    rw [mul_div_cancel_right₀ _ (by positivity)]
  · rw [hdouble.target_eq]

theorem toFloat_eq :
    d.toUInt64.toFloat =
      packed (.finite .positive (d * 2 ^ k) (-k) (isDouble_mul_two_pow hpos hk).pos) := by
  have hbits : d < 2 ^ 53 := (Nat.log2_lt hpos.ne').1 (by omega)
  have hword : d.toUInt64.toNat = d := Nat.mod_eq_of_lt (by omega)
  have hcompare : compare (d : Int) 0 = .gt := Int.compare_eq_gt.2 (by omega)
  show packed
    (Float.Model.UnpackedFloat.normalize binary64 (d.toUInt64.toNat : Int) 0 .positive) = _
  rw [hword, Float.Model.UnpackedFloat.normalize, hcompare]
  exact congrArg packed (round_eq hpos hk)

end Word

theorem exists_toFloat {d : Nat} (hpos : 0 < d) (hlt : d < 2 ^ 53) :
    ∃ m e, ∃ hm : 0 < m, d.toUInt64.toFloat.toModel.unpack = .finite .positive m e hm ∧
      2 ^ 52 ≤ m ∧ (m * 2 ^ e : Rat) = d := by
  have hlog : d.log2 < 53 := (Nat.log2_lt hpos.ne').2 hlt
  obtain ⟨k, hk⟩ : ∃ k, d.log2 + k = 52 := ⟨52 - d.log2, by omega⟩
  have hdouble := isDouble_mul_two_pow hpos hk
  refine ⟨d * 2 ^ k, -k, hdouble.pos, ?_, hdouble.normal.resolve_left (by omega), ?_⟩
  · rw [toFloat_eq hpos hk, unpack_packed, unpack_pack_finite hdouble]
  · push_cast
    rw [zpow_neg, zpow_natCast]
    field_simp

/-- A double that is a power of ten. -/
def isPowerOfTen (x : Float) (n : Nat) : Bool :=
  match x.toModel.unpack with
  | .finite .positive m e _ => m * 2 ^ e.toNat = 10 ^ n * 2 ^ (-e).toNat
  | _ => false

theorem isPowerOfTen_getElem : ∀ n (hn : n < Float.exactlyRepresentablePowersOfTen.size),
    isPowerOfTen Float.exactlyRepresentablePowersOfTen[n] n = true := by
  decide +kernel

theorem exists_of_isPowerOfTen {x : Float} {n : Nat} (h : isPowerOfTen x n = true) :
    ∃ m e, ∃ hpos : 0 < m, x.toModel.unpack = .finite .positive m e hpos ∧
      (m * 2 ^ e : Rat) = 10 ^ n := by
  rw [isPowerOfTen] at h
  split at h
  · next m e hpos hunpack =>
    refine ⟨m, e, hpos, hunpack, ?_⟩
    have hvalue : (m : Rat) * 2 ^ e.toNat = 10 ^ n * 2 ^ (-e).toNat := by
      exact_mod_cast of_decide_eq_true h
    rw [zpow_eq_div two_ne_zero, ← mul_div_assoc, hvalue, mul_div_cancel_right₀]
    positivity
  · cases h

section Table

variable {m d n : Nat} {q : Int} {power : Float} (hdouble : IsDouble m q) (hpos : 0 < d)
  (hlt : d < 2 ^ 53) (hpower : isPowerOfTen power n = true)

include hpos hlt hpower

theorem toFloat_div_eq (h : RoundsTo m q (d / 10 ^ n)) :
    d.toUInt64.toFloat / power = packed (.finite .positive m q hdouble.pos) := by
  obtain ⟨m₁, e₁, h₁, hunpack₁, -, hvalue₁⟩ := exists_toFloat hpos hlt
  obtain ⟨m₂, e₂, h₂, hunpack₂, hvalue₂⟩ := exists_of_isPowerOfTen hpower
  rw [← hvalue₁, ← hvalue₂] at h
  show packed (div binary64 d.toUInt64.toFloat.toModel.unpack power.toModel.unpack) = _
  rw [hunpack₁, hunpack₂, div_eq h₁ h₂ hdouble h]

theorem toFloat_mul_eq (h : RoundsTo m q (d * 10 ^ n)) :
    d.toUInt64.toFloat * power = packed (.finite .positive m q hdouble.pos) := by
  obtain ⟨m₁, e₁, h₁, hunpack₁, hbits, hvalue₁⟩ := exists_toFloat hpos hlt
  obtain ⟨m₂, e₂, h₂, hunpack₂, hvalue₂⟩ := exists_of_isPowerOfTen hpower
  have hlarge : 2 ^ 52 ≤ m₁ * m₂ := hbits.trans (Nat.le_mul_of_pos_right _ h₂)
  rw [← hvalue₁, ← hvalue₂] at h
  show packed (mul binary64 d.toUInt64.toFloat.toModel.unpack power.toModel.unpack) = _
  rw [hunpack₁, hunpack₂, mul_eq h₁ h₂ hdouble h hlarge]

end Table

theorem exponent_eq (e : Int) :
    (if decide (e < 0) = true then Int.negOfNat e.natAbs else Int.ofNat e.natAbs) = e := by
  simp only [decide_eq_true_eq]
  split
  · rw [Int.negOfNat_eq]
    show -((e.natAbs : Nat) : Int) = e
    omega
  · show ((e.natAbs : Nat) : Int) = e
    omega

section Decimals

variable {m d : Nat} {q e : Int} (hdouble : IsDouble m q) (h : RoundsTo m q (d * 10 ^ e))

include h

/-- The double of a literal is the one in whose reach the literal is. -/
theorem float_ofScientific_eq :
    Float.ofScientific d (e < 0) e.natAbs = packed (.finite .positive m q hdouble.pos) := by
  rw [Float.ofScientific]
  split
  · next hsmall =>
    have hpos := h.digits_pos hdouble
    have hpower := isPowerOfTen_getElem e.natAbs (Nat.lt_succ_of_le hsmall.2)
    by_cases hneg : e < 0
    · rw [ten_zpow_of_neg hneg, ← div_eq_mul_inv] at h
      simp only [hneg, decide_true, if_true]
      exact toFloat_div_eq hdouble hpos hsmall.1 hpower h
    · rw [ten_zpow_of_nonneg (not_lt.1 hneg)] at h
      simp only [hneg, decide_false, Bool.false_eq_true, if_false]
      exact toFloat_mul_eq hdouble hpos hsmall.1 hpower h
  · simp only [exponent_eq]
    exact congrArg packed (ofScientific_eq hdouble h)

/-- The double next to a decimal is the one in whose reach the decimal is. -/
theorem nearestDouble_eq : nearestDouble d e = packed (.finite .positive m q hdouble.pos) := by
  have hpos := h.digits_pos hdouble
  have hupper := h.size_le hdouble
  have hlower := h.le_size hdouble
  rw [nearestDouble]
  simp only [if_neg hpos.ne', if_neg (not_lt.2 hupper), if_neg (not_lt.2 hlower)]
  exact float_ofScientific_eq hdouble h

end Decimals

end LayeredConfig.Decimal
