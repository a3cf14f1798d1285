import LayeredConfig.Table

/-!
# The order of names by their bytes

Names are ordered character by character, by code point. The order of their
encoded bytes is the same: of two characters the lesser has the lesser encoding,
and neither encoding begins with the other, so that what follows cannot change
the outcome.
-/

namespace LayeredConfig.Text

/-- The bytes of a text. -/
def bytes (text : String) : List UInt8 :=
  text.toUTF8.data.toList

/-- One row of bytes is less than another, whatever follows either of them. -/
def Diverges (xs ys : List UInt8) : Prop :=
  ∀ xs' ys', xs ++ xs' < ys ++ ys'

theorem diverges_cons {m n : Nat} {xs ys : List UInt8} (hm : m < 256) (hn : n < 256)
    (h : m < n ∨ (m = n ∧ Diverges xs ys)) :
    Diverges (UInt8.ofNat m :: xs) (UInt8.ofNat n :: ys) := by
  intro xs' ys'
  rw [List.cons_append, List.cons_append, List.cons_lt_cons_iff]
  rcases h with hlt | ⟨heq, hrest⟩
  · left
    rw [UInt8.lt_iff_toNat_lt, UInt8.toNat_ofNat_of_lt' hm, UInt8.toNat_ofNat_of_lt' hn]
    exact hlt
  · right
    exact ⟨congrArg UInt8.ofNat heq, hrest xs' ys'⟩

section Digits

variable {v w : Nat} {xs ys : List UInt8}

theorem diverges_one (h : v < w) (hhead : v / 64 = w / 64) :
    Diverges [UInt8.ofNat (v % 64 + 128)] [UInt8.ofNat (w % 64 + 128)] :=
  diverges_cons (by omega) (by omega) (.inl (by omega))

theorem diverges_two (h : v < w) (hhead : v / 4096 = w / 4096) :
    Diverges [UInt8.ofNat (v / 64 % 64 + 128), UInt8.ofNat (v % 64 + 128)]
      [UInt8.ofNat (w / 64 % 64 + 128), UInt8.ofNat (w % 64 + 128)] := by
  refine diverges_cons (by omega) (by omega) ?_
  by_cases hnext : v / 64 = w / 64
  · exact .inr ⟨by omega, diverges_one h hnext⟩
  · exact .inl (by omega)

theorem diverges_three (h : v < w) (hhead : v / 262144 = w / 262144) :
    Diverges
      [UInt8.ofNat (v / 4096 % 64 + 128), UInt8.ofNat (v / 64 % 64 + 128),
        UInt8.ofNat (v % 64 + 128)]
      [UInt8.ofNat (w / 4096 % 64 + 128), UInt8.ofNat (w / 64 % 64 + 128),
        UInt8.ofNat (w % 64 + 128)] := by
  refine diverges_cons (by omega) (by omega) ?_
  by_cases hnext : v / 4096 = w / 4096
  · exact .inr ⟨by omega, diverges_two h hnext⟩
  · exact .inl (by omega)

end Digits

theorem code_lt (c : Char) : c.val.toNat < 0x110000 := by
  have hvalid := c.valid
  rw [UInt32.isValidChar, Nat.isValidChar] at hvalid
  omega

/-- The encodings of two characters diverge as their code points do. -/
theorem diverges_utf8EncodeChar {c d : Char} (h : c < d) :
    Diverges (String.utf8EncodeChar c) (String.utf8EncodeChar d) := by
  have hlt : c.val.toNat < d.val.toNat := h
  have hd := code_lt d
  simp only [String.utf8EncodeChar]
  generalize c.val.toNat = v at hlt
  generalize d.val.toNat = w at hlt hd
  split
  · -- One byte: the first byte of every longer encoding is greater.
    split
    · exact diverges_cons (by omega) (by omega) (.inl (by omega))
    · split
      · exact diverges_cons (by omega) (by omega) (.inl (by omega))
      · split
        · exact diverges_cons (by omega) (by omega) (.inl (by omega))
        · exact diverges_cons (by omega) (by omega) (.inl (by omega))
  · rw [if_neg (show ¬w ≤ 0x7f by omega)]
    split
    · split
      · refine diverges_cons (by omega) (by omega) ?_
        by_cases hnext : v / 64 = w / 64
        · exact .inr ⟨by omega, diverges_one hlt hnext⟩
        · exact .inl (by omega)
      · split
        · exact diverges_cons (by omega) (by omega) (.inl (by omega))
        · exact diverges_cons (by omega) (by omega) (.inl (by omega))
    · rw [if_neg (show ¬w ≤ 0x7ff by omega)]
      split
      · split
        · refine diverges_cons (by omega) (by omega) ?_
          by_cases hnext : v / 4096 = w / 4096
          · exact .inr ⟨by omega, diverges_two hlt hnext⟩
          · exact .inl (by omega)
        · exact diverges_cons (by omega) (by omega) (.inl (by omega))
      · rw [if_neg (show ¬w ≤ 0xffff by omega)]
        refine diverges_cons (by omega) (by omega) ?_
        by_cases hnext : v / 262144 = w / 262144
        · exact .inr ⟨by omega, diverges_three hlt hnext⟩
        · exact .inl (by omega)

theorem bytes_eq (text : String) : bytes text = text.toList.flatMap String.utf8EncodeChar := by
  rw [bytes, String.toUTF8_eq_toByteArray, ← String.utf8Encode_toList, List.utf8Encode,
    List.data_toByteArray]

theorem utf8EncodeChar_ne_nil (c : Char) : String.utf8EncodeChar c ≠ [] := by
  intro hnil
  have hlength := String.length_utf8EncodeChar c
  have hpos := Char.utf8Size_pos c
  rw [hnil, List.length_nil] at hlength
  omega

theorem flatMap_utf8EncodeChar_lt {xs ys : List Char} (h : xs < ys) :
    xs.flatMap String.utf8EncodeChar < ys.flatMap String.utf8EncodeChar := by
  induction xs generalizing ys with
  | nil =>
    cases ys with
    | nil => exact absurd h (List.lt_irrefl [])
    | cons d rest =>
      rw [List.flatMap_nil, List.flatMap_cons]
      cases hfirst : String.utf8EncodeChar d with
      | nil => exact absurd hfirst (utf8EncodeChar_ne_nil d)
      | cons first others => exact List.nil_lt_cons _ _
  | cons c rest ih =>
    cases ys with
    | nil => exact absurd h (List.not_lt_nil _)
    | cons d rest' =>
      rw [List.flatMap_cons, List.flatMap_cons]
      rcases List.cons_lt_cons_iff.1 h with hhead | ⟨rfl, hrest⟩
      · exact diverges_utf8EncodeChar hhead _ _
      · exact List.append_left_lt (ih hrest)

theorem bytes_lt {a b : String} (h : a < b) : bytes a < bytes b := by
  rw [bytes_eq, bytes_eq]
  exact flatMap_utf8EncodeChar_lt h

/-- Texts are ordered as their bytes are. -/
theorem lt_iff_bytes_lt {a b : String} : a < b ↔ bytes a < bytes b := by
  constructor
  · exact bytes_lt
  · intro hbytes
    refine Classical.byContradiction fun hlt => ?_
    by_cases hgt : b < a
    · exact List.lt_asymm hbytes (bytes_lt hgt)
    · have heq : a = b := String.le_antisymm (String.not_lt.1 hgt) (String.not_lt.1 hlt)
      rw [heq] at hbytes
      exact List.lt_irrefl _ hbytes

end LayeredConfig.Text
