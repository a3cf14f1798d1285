import LayeredConfig.Source.Sections

/-!
# When two section names are the same

Section names are compared in lowercase, except for `DEFAULT`, which only itself
matches. One normal form serves both rules because no text has `DEFAULT` as its
lowercase form: every lowercase form is free of the capital `D`.
-/

namespace LayeredConfig

namespace Text

/-- Beyond ASCII too, a lowercase form lies above the capital letters of ASCII. -/
theorem lowercaseRuns_above_capitals :
    ∀ run ∈ lowercaseRuns, (0x5a : Int) < run.1 + run.2.2.2 := by
  have hall : (lowercaseRuns.all fun run => (0x5a : Int) < run.1 + run.2.2.2) = true := by
    decide +kernel
  intro run hrun
  exact of_decide_eq_true (List.all_eq_true.1 hall run hrun)

theorem lowerCode_ne_capitalD (n : Nat) : lowerCode n ≠ 0x44 := by
  rw [lowerCode]
  split
  · split
    · next hcapital =>
      simp only [Bool.and_eq_true, decide_eq_true_eq] at hcapital
      omega
    · next hother =>
      simp only [Bool.and_eq_true, decide_eq_true_eq] at hother
      omega
  · next hascii =>
    split
    · next run hrun =>
      have habove := lowercaseRuns_above_capitals run (List.mem_of_find?_eq_some hrun)
      have hfirst := List.find?_some hrun
      simp only [Bool.and_eq_true, decide_eq_true_eq] at hfirst
      omega
    · omega

theorem ofNat_ne_capitalD {n : Nat} (h : n ≠ 0x44) : Char.ofNat n ≠ 'D' := by
  intro heq
  have hcode : (Char.ofNat n).toNat = n ∨ (Char.ofNat n).toNat = 0 := by
    by_cases hvalid : n.isValidChar
    · left
      rw [Char.ofNat, dif_pos hvalid]
      rfl
    · right
      rw [Char.ofNat, dif_neg hvalid]
      rfl
  rw [heq] at hcode
  rcases hcode with hcode | hcode
  · exact h hcode.symm
  · cases hcode

theorem not_mem_lowerChar_capitalD (c : Char) : 'D' ∉ lowerChar c := by
  rw [lowerChar]
  split
  · decide
  · intro hmem
    exact ofNat_ne_capitalD (lowerCode_ne_capitalD c.toNat) (List.mem_singleton.1 hmem).symm

theorem not_mem_lowerAfter_capitalD (before text : List Char) :
    'D' ∉ lowerAfter before text := by
  induction text generalizing before with
  | nil => exact List.not_mem_nil
  | cons c rest ih =>
    intro hmem
    rw [lowerAfter] at hmem
    rcases List.mem_append.1 hmem with hform | hrest
    · split at hform
      · split at hform
        · exact absurd hform (by decide)
        · exact absurd hform (by decide)
      · exact not_mem_lowerChar_capitalD c hform
    · exact ih (c :: before) hrest

theorem lowercase_ne_defaultSection (text : String) : lowercase text ≠ defaultSection := by
  intro heq
  have hform : lowerAfter [] text.toList = defaultSection.toList := by
    rw [← heq, lowercase, String.toList_ofList]
  apply not_mem_lowerAfter_capitalD [] text.toList
  rw [hform]
  decide

end Text

/-- A header and the name of a group stand for the same section: both are exactly `DEFAULT`, or
neither is and they have the same lowercase form. -/
def SameSection (header name : String) : Prop :=
  (header = defaultSection ∧ name = defaultSection) ∨
    (header ≠ defaultSection ∧ name ≠ defaultSection ∧
      Text.lowercase header = Text.lowercase name)

instance (header name : String) : Decidable (SameSection header name) :=
  inferInstanceAs (Decidable (_ ∨ _))

/-- Names have the same normal form exactly when they stand for the same section. -/
theorem normalizeName_eq_iff {header name : String} :
    normalizeName header = normalizeName name ↔ SameSection header name := by
  rw [normalizeName, normalizeName, SameSection]
  by_cases hheader : header = defaultSection
  · by_cases hname : name = defaultSection
    · simp [hheader, hname]
    · simp [hheader, hname, (Text.lowercase_ne_defaultSection name).symm]
  · by_cases hname : name = defaultSection
    · simp [hheader, hname, Text.lowercase_ne_defaultSection header]
    · simp [hheader, hname]

end LayeredConfig
