import LayeredConfig.Proofs.WellFormed

/-!
# Kinds of lines

Which kind a line is can be told from its characters. It is blank if all of them
are, and a comment if the first one that is no blank marks it as one; any other
line has a body, which is the line without the blanks around it, and it is
indented if it begins with a blank.

Blanks at the end of a line tell nothing, and neither does where they came from:
a carriage return before the newline is one of them.
-/

namespace LayeredConfig

/-- All characters of a line are blanks. -/
def IsBlankLine (raw : List Char) : Prop :=
  ∀ c ∈ raw, Text.isBlank c = true

/-- The first character of a line that is no blank is a mark of comments. -/
def IsCommentLine (raw : List Char) : Prop :=
  ∃ blanks mark rest, raw = blanks ++ mark :: rest ∧ (∀ c ∈ blanks, Text.isBlank c = true) ∧
    (mark = '#' ∨ mark = ';')

/-- A line begins with a blank. -/
def IsIndented (raw : List Char) : Prop :=
  ∃ c, raw.head? = some c ∧ Text.isBlank c = true

variable {raw : List Char}

theorem isCommentMark_iff {c : Char} : Line.isCommentMark c = true ↔ c = '#' ∨ c = ';' := by
  simp [Line.isCommentMark]

theorem not_isBlank_of_isCommentMark {c : Char} (h : c = '#' ∨ c = ';') :
    Text.isBlank c = false := by
  rcases h with rfl | rfl
  · rfl
  · rfl

theorem isCommentLine_iff_head_trim :
    IsCommentLine raw ↔ ∃ c, (Text.trim raw).head? = some c ∧ (c = '#' ∨ c = ';') := by
  constructor
  · rintro ⟨blanks, mark, rest, rfl, hblanks, hmark⟩
    rw [Text.trim_blank_append hblanks]
    exact ⟨mark, Text.head?_trim rfl (not_isBlank_of_isCommentMark hmark), hmark⟩
  · rintro ⟨mark, hhead, hmark⟩
    obtain ⟨before, after, hraw, hbefore, -⟩ := Text.exists_blanks_around raw
    cases hbody : Text.trim raw with
    | nil =>
      rw [hbody] at hhead
      cases hhead
    | cons c rest =>
      rw [hbody] at hhead hraw
      cases hhead
      exact ⟨before, mark, rest ++ after, by rw [hraw, List.append_assoc]; rfl, hbefore, hmark⟩

theorem head?_trimEnd (h : Text.trimEnd raw ≠ []) : (Text.trimEnd raw).head? = raw.head? := by
  obtain ⟨blanks, hraw, -⟩ := Text.exists_blanks_after raw
  obtain ⟨c, rest, hfront⟩ := List.exists_cons_of_ne_nil h
  rw [congrArg List.head? hraw, hfront]
  rfl

/-- A line is indented if trimming takes something off its front. -/
theorem isIndented_iff_length (h : Text.trimEnd raw ≠ []) :
    IsIndented raw ↔ (Text.trim raw).length ≠ (Text.trimEnd raw).length := by
  have hstart : Text.trim raw = Text.trimEnd raw ↔
      (Text.trim raw).length = (Text.trimEnd raw).length :=
    ⟨congrArg List.length, (List.dropWhile_sublist Text.isBlank).eq_of_length⟩
  rw [ne_eq, ← hstart, Text.trim, Text.trimStart_eq_self_iff, head?_trimEnd h]
  simp only [Classical.not_forall, Bool.not_eq_false, exists_prop]
  rfl

namespace Line

theorem ofText_congr {raw raw' : List Char} (h : Text.trimEnd raw = Text.trimEnd raw') :
    ofText raw = ofText raw' := by
  rw [ofText, ofText, h]

theorem ofText_eq_blank_iff : ofText raw = .blank ↔ IsBlankLine raw := by
  rw [IsBlankLine, ← Text.trim_eq_nil_iff, Text.trim, ofText]
  cases Text.trimStart (Text.trimEnd raw) with
  | nil => simp
  | cons c rest =>
    by_cases hmark : isCommentMark c = true
    · simp [hmark]
    · simp [hmark]

theorem ofText_eq_comment_iff : ofText raw = .comment ↔ IsCommentLine raw := by
  rw [isCommentLine_iff_head_trim, Text.trim, ofText]
  cases Text.trimStart (Text.trimEnd raw) with
  | nil => simp
  | cons c rest => simp [← isCommentMark_iff]

theorem ofText_eq_body_iff {indented : Bool} {text : List Char} :
    ofText raw = .body indented text ↔
      ¬IsBlankLine raw ∧ ¬IsCommentLine raw ∧ text = Text.trim raw ∧
        (indented = true ↔ IsIndented raw) := by
  rw [← ofText_eq_blank_iff, ← ofText_eq_comment_iff, ofText]
  split
  · simp
  · next c rest htext =>
    have hfront : Text.trimEnd raw ≠ [] := by
      intro hnil
      rw [hnil] at htext
      cases htext
    rw [isIndented_iff_length hfront, Text.trim, htext]
    split
    · next hmark => simp
    · next hmark =>
      constructor
      · intro hbody
        cases hbody
        exact ⟨Line.noConfusion, Line.noConfusion, rfl, decide_eq_true_iff⟩
      · rintro ⟨-, -, rfl, hindented⟩
        congr 1
        rw [Bool.eq_iff_iff, decide_eq_true_iff]
        exact hindented.symm

theorem continues_iff {indented : Bool} {text : List Char} (hraw : '\n' ∉ raw)
    (h : ofText raw = .body indented text) :
    Continues text ↔ Statement.isAssignment text = false := by
  obtain ⟨hname, hhead⟩ := isName_of_ofText hraw h
  rw [Statement.isAssignment_eq_false_iff]
  exact ⟨fun hcontinues => hcontinues.key, fun hkey => ⟨hname, hhead, hkey⟩⟩

end Line

end LayeredConfig
