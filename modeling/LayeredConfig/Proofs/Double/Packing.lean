import LayeredConfig.Decimal.Floating
import Mathlib

/-!
# The parts of a double

A double is a word of 64 bits: a sign, eleven bits of exponent and 52 bits of
fraction. `IsDouble m q` says which numbers `m * 2 ^ q` are positive finite
doubles, with the significand and the exponent that the word gives them, and
`packed` makes a double of its parts. A double that is a number is infinite,
zero or finite (`exists_packed`), and a finite one is written from just these
parts (`doubleText_packed`).

Words are taken apart and put together over the natural numbers, where a field
is a quotient and a remainder by powers of two.
-/

namespace LayeredConfig.Decimal

open Float.Model (UnpackedFloat)
open Float.Model.Format (binary64)
open Float.Model.UnpackedFloat

/-- The significand and the exponent of a positive finite double. -/
structure IsDouble (m : Nat) (q : Int) : Prop where
  pos : 0 < m
  lt : m < 2 ^ 53
  least : -1074 ≤ q
  most : q ≤ 971
  /-- The leading bit is set, unless the number is too small for it. -/
  normal : q = -1074 ∨ 2 ^ 52 ≤ m

section Components

variable (sign : Sign) (exponent : BitVec 11) (fraction : BitVec 52)

theorem toNat_packComponents :
    (packComponents binary64 sign exponent fraction).toNat =
      sign.toBitVec.toNat * 2 ^ 63 + exponent.toNat * 2 ^ 52 + fraction.toNat := by
  rw [packComponents, BitVec.toNat_append, BitVec.toNat_append,
    ← Nat.shiftLeft_add_eq_or_of_lt exponent.isLt, ← Nat.shiftLeft_add_eq_or_of_lt fraction.isLt,
    Nat.shiftLeft_eq, Nat.shiftLeft_eq]
  ring

theorem toNat_implicit_append : (1#1 ++ fraction).toNat = 2 ^ 52 + fraction.toNat := by
  rw [BitVec.toNat_append, ← Nat.shiftLeft_add_eq_or_of_lt fraction.isLt, Nat.shiftLeft_eq]
  rfl

theorem unpack_subnormal (hpos : 0 < fraction.toNat) :
    unpack binary64 (packComponents binary64 sign 0#11 fraction) =
      .finite sign fraction.toNat (-1074) hpos := by
  have hfinite : 0#11 ≠ -1#11 := by decide
  have hne : fraction ≠ 0#52 := by
    rintro rfl
    exact absurd hpos (by decide)
  simp only [unpack, unpackMantissa_packComponents, unpackExponent_packComponents,
    unpackSign_packComponents, Sign.ofBitVec_toBitVec, if_neg hfinite, if_true, dif_neg hne]
  rfl

theorem unpack_normal (hzero : exponent ≠ 0#11) (hfinite : exponent ≠ -1#11)
    (hpos : 0 < 2 ^ 52 + fraction.toNat) :
    unpack binary64 (packComponents binary64 sign exponent fraction) =
      .finite sign (2 ^ 52 + fraction.toNat) (exponent.toNat - 1075) hpos := by
  simp only [unpack, unpackMantissa_packComponents, unpackExponent_packComponents,
    unpackSign_packComponents, Sign.ofBitVec_toBitVec, if_neg hfinite, if_neg hzero,
    toNat_implicit_append]
  rfl

end Components

/-- The exponent field of a finite double. -/
def biasedExponent (m : Nat) (q : Int) : Nat :=
  if m < 2 ^ 52 then 0 else (q + 1075).toNat

section Finite

variable {m : Nat} {q : Int} (h : IsDouble m q) (sign : Sign)

include h in
theorem biasedExponent_lt : biasedExponent m q < 2047 := by
  have hmost := h.most
  rw [biasedExponent]
  split
  · omega
  · omega

theorem pack_finite :
    pack binary64 (.finite sign m q h.pos) =
      packComponents binary64 sign (BitVec.ofNat 11 (biasedExponent m q)) (BitVec.ofNat 52 m) := by
  have hmost := h.most
  have hbits : m.log2 + 1 = binary64.mantissaBits ↔ ¬m < 2 ^ 52 := by
    have hupper : m.log2 < 53 := (Nat.log2_lt h.pos.ne').2 h.lt
    rw [← Nat.log2_lt h.pos.ne']
    show m.log2 + 1 = 53 ↔ _
    omega
  have hbias : q + (binary64.exponentBias : Int) + (52 : Nat) = q + 1075 := by
    show q + 1023 + 52 = _
    omega
  have hfits : ¬2 ^ 11 ≤ (q + 1075).toNat + 1 := by omega
  simp only [pack, hbias, if_neg hfits, biasedExponent, hbits]
  by_cases hsmall : m < 2 ^ 52
  · rw [if_pos hsmall, if_neg (not_not.2 hsmall)]
  · rw [if_neg hsmall, if_pos hsmall]

/-- A finite double is taken apart into the parts that it was made of. -/
theorem unpack_pack_finite :
    unpack binary64 (pack binary64 (.finite sign m q h.pos)) = .finite sign m q h.pos := by
  have hpos := h.pos
  have hlt := h.lt
  have hleast := h.least
  have hbiased := biasedExponent_lt h
  rw [pack_finite h]
  rw [biasedExponent] at hbiased ⊢
  by_cases hsmall : m < 2 ^ 52
  · have hfraction : (BitVec.ofNat 52 m).toNat = m := Nat.mod_eq_of_lt hsmall
    have hexponent : q = -1074 := h.normal.resolve_right (by omega)
    rw [if_pos hsmall, unpack_subnormal sign _ (by rw [hfraction]; exact hpos)]
    simp only [hfraction, hexponent]
  · rw [if_neg hsmall] at hbiased ⊢
    have hfraction : (BitVec.ofNat 52 m).toNat = m % 2 ^ 52 := rfl
    have hexponent : (BitVec.ofNat 11 (q + 1075).toNat).toNat = (q + 1075).toNat :=
      Nat.mod_eq_of_lt (by omega)
    have hvalue : 2 ^ 52 + m % 2 ^ 52 = m := by omega
    have hshift : ((q + 1075).toNat : Int) - 1075 = q := by omega
    rw [unpack_normal sign _ _ _ _ (by omega)]
    · simp only [hfraction, hexponent, hvalue, hshift]
    · intro hzero
      have heq : (q + 1075).toNat = 0 := hexponent.symm.trans (congrArg BitVec.toNat hzero)
      omega
    · intro hlast
      have heq : (q + 1075).toNat = 2047 := hexponent.symm.trans (congrArg BitVec.toNat hlast)
      omega

end Finite

/-- The double with the parts of an unpacked one. -/
def packed (u : UnpackedFloat) : Float :=
  .ofModel (.pack u)

theorem packed_unpack (x : Float) : packed x.toModel.unpack = x := by
  apply Float.toBits_inj.1
  apply UInt64.toBitVec_inj.1
  exact pack_unpack_of_valid x.toModel.valid

theorem unpack_packed (u : UnpackedFloat) :
    (packed u).toModel.unpack = unpack binary64 (pack binary64 u) := rfl

theorem neg_packed {u : UnpackedFloat} (h : unpack binary64 (pack binary64 u) = u) :
    -packed u = packed u.neg := by
  show packed (unpack binary64 (pack binary64 u)).neg = _
  rw [h]

theorem isDouble_of_unpack {bits : BitVec 64} {sign : Sign} {m : Nat} {q : Int} {hpos : 0 < m}
    (h : unpack binary64 bits = .finite sign m q hpos) : IsDouble m q := by
  have hbias : (binary64.exponentBias : Int) + binary64.mantissaBitsWithoutImplicit = 1075 := rfl
  simp only [unpack, hbias] at h
  have hfraction : (@unpackMantissa binary64 bits).toNat < 2 ^ 52 := BitVec.isLt _
  have hexponent : (@unpackExponent binary64 bits).toNat < 2 ^ 11 := BitVec.isLt _
  generalize @unpackExponent binary64 bits = exponent at h hexponent
  split at h
  · split at h
    · cases h
    · cases h
  · next hlast =>
    split at h
    · next hzero =>
      split at h
      · cases h
      · injection h with _ hm hq
        rw [hzero] at hq
        rw [hm] at hfraction
        have hleast : q = -1074 := hq.symm
        exact ⟨hpos, by omega, by omega, by omega, .inl hleast⟩
    · next hzero =>
      injection h with _ hm hq
      have hlastNat : exponent.toNat ≠ 2047 := fun heq => hlast (BitVec.eq_of_toNat_eq heq)
      have hzeroNat : exponent.toNat ≠ 0 := fun heq => hzero (BitVec.eq_of_toNat_eq heq)
      have hvalue : 2 ^ 52 + (@unpackMantissa binary64 bits).toNat = m :=
        (toNat_implicit_append _).symm.trans hm
      exact ⟨hpos, by omega, by omega, by omega, .inr (by omega)⟩

theorem exists_packed {x : Float} (h : x.isNaN = false) :
    (∃ sign, x = packed (.infinity sign)) ∨ (∃ sign, x = packed (.zero sign)) ∨
      ∃ sign m q, ∃ hdouble : IsDouble m q, x = packed (.finite sign m q hdouble.pos) := by
  have hx := packed_unpack x
  cases hunpack : x.toModel.unpack with
  | notANumber =>
    have hnumber : x.toModel.unpack.isNaN = false := h
    rw [hunpack] at hnumber
    cases hnumber
  | infinity sign => exact .inl ⟨sign, by rw [← hunpack, hx]⟩
  | zero sign => exact .inr (.inl ⟨sign, by rw [← hunpack, hx]⟩)
  | finite sign m q hpos =>
    exact .inr (.inr ⟨sign, m, q, isDouble_of_unpack hunpack, by rw [← hunpack, hx]⟩)

section Written

theorem doubleText_of_fields {x : Float} (hnumber : x.isNaN = false) {s b f : Nat} (hs : s < 2)
    (hb : b < 2047) (hf : f < 2 ^ 52) (hne : ¬(b = 0 ∧ f = 0))
    (hbits : x.toBits.toNat = s * 2 ^ 63 + b * 2 ^ 52 + f) :
    doubleText plainStyle x = (if s = 0 then "" else "-") ++ String.ofList
      (if b = 0 then shortest f (-1074) else shortest (2 ^ 52 + f) (b - 1075)).positional := by
  have hsign : Nat.pow 2 63 ≤ x.toBits.toNat ↔ ¬s = 0 := by
    show 2 ^ 63 ≤ _ ↔ _
    omega
  have hexponent : x.toBits.toNat / Nat.pow 2 52 % Nat.pow 2 11 = b := by
    show _ / 2 ^ 52 % 2 ^ 11 = _
    omega
  have hfraction : x.toBits.toNat % Nat.pow 2 52 = f := by
    show _ % 2 ^ 52 = _
    omega
  simp only [doubleText, hnumber, hsign, hexponent, hfraction, if_neg hb.ne, if_neg hne, plainStyle]
  simp

variable {m : Nat} {q : Int} (h : IsDouble m q) (sign : Sign)

include h

/-- The two forms in which the fields give a significand and an exponent. -/
theorem shortest_of_fields :
    (if biasedExponent m q = 0 then shortest (m % 2 ^ 52) (-1074)
      else shortest (2 ^ 52 + m % 2 ^ 52) (biasedExponent m q - 1075)) = shortest m q := by
  have hlt := h.lt
  have hleast := h.least
  rw [biasedExponent]
  by_cases hsmall : m < 2 ^ 52
  · have hexponent : q = -1074 := h.normal.resolve_right (by omega)
    rw [if_pos hsmall, if_pos rfl, Nat.mod_eq_of_lt hsmall, hexponent]
  · have hshift : ((q + 1075).toNat : Int) - 1075 = q := by omega
    have hvalue : 2 ^ 52 + m % 2 ^ 52 = m := by omega
    rw [if_neg hsmall, if_neg (by omega), hshift, hvalue]

theorem isNaN_packed : (packed (.finite sign m q h.pos)).isNaN = false := by
  show (packed _).toModel.unpack.isNaN = false
  rw [unpack_packed, unpack_pack_finite h]
  rfl

theorem toNat_toBits_packed :
    (packed (.finite sign m q h.pos)).toBits.toNat =
      sign.toBitVec.toNat * 2 ^ 63 + biasedExponent m q * 2 ^ 52 + m % 2 ^ 52 := by
  have hbiased := biasedExponent_lt h
  have hbits := toNat_packComponents sign (BitVec.ofNat 11 (biasedExponent m q)) (BitVec.ofNat 52 m)
  rw [← pack_finite h, BitVec.toNat_ofNat, BitVec.toNat_ofNat,
    Nat.mod_eq_of_lt (by omega : biasedExponent m q < 2 ^ 11)] at hbits
  exact hbits

/-- A finite double is written by its sign and the shortest decimal that stands for it. -/
theorem doubleText_packed :
    doubleText plainStyle (packed (.finite sign m q h.pos)) =
      (if sign.toBitVec.toNat = 0 then "" else "-") ++ String.ofList (shortest m q).positional := by
  have hfraction : m % 2 ^ 52 < 2 ^ 52 := Nat.mod_lt _ (Nat.two_pow_pos 52)
  have hne : ¬(biasedExponent m q = 0 ∧ m % 2 ^ 52 = 0) := by
    have hpos := h.pos
    have hlt := h.lt
    have hleast := h.least
    rw [biasedExponent]
    split
    · omega
    · omega
  rw [doubleText_of_fields (isNaN_packed h sign) sign.toBitVec.isLt (biasedExponent_lt h) hfraction
    hne (toNat_toBits_packed h sign), shortest_of_fields h]

end Written

end LayeredConfig.Decimal
