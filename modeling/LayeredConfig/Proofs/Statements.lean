import LayeredConfig.Proofs.Written

/-!
# Statements in terms of characters

What a body states, and whether it counts as an assignment on an indented line,
said of its characters. A header is closed and has a name between its brackets;
an assignment has a key before one of its separators, which is then the first of
them, and one pair of quotes comes off what stands behind it.

Both readings of a body look at the same separator, so a body that counts as an
assignment is one, unless it begins with a bracket.
-/

namespace LayeredConfig

/-- A text loses one pair of equal quotes, or has none around it. -/
inductive Unquotes (text : List Char) : List Char → Prop
  | quoted {quote : Char} {inner : List Char} (hquote : quote = '"' ∨ quote = '\'')
      (h : text = quote :: (inner ++ [quote])) : Unquotes text inner
  | plain (h : ∀ quote inner, quote = '"' ∨ quote = '\'' → text ≠ quote :: (inner ++ [quote])) :
      Unquotes text text

theorem Text.mem_trim_of_mem {text : List Char} {c : Char} (h : c ∈ text)
    (hc : isBlank c = false) : c ∈ trim text := by
  obtain ⟨before, after, htext, hbefore, hafter⟩ := exists_blanks_around text
  have hnone : ∀ {blanks : List Char}, (∀ d ∈ blanks, isBlank d = true) → c ∉ blanks :=
    fun hblanks hmem => by rw [hblanks c hmem] at hc; cases hc
  rw [htext, List.append_assoc, List.mem_append, List.mem_append] at h
  rcases h with hmem | hmem | hmem
  · exact absurd hmem (hnone hbefore)
  · exact hmem
  · exact absurd hmem (hnone hafter)

theorem IsKey.forall_not_isSeparator {before : List Char} (hkey : IsKey (Text.trim before)) :
    ∀ c ∈ before, ¬Statement.isSeparator c = true := by
  rw [Statement.forall_not_isSeparator_iff]
  exact ⟨fun hmem => hkey.equals (Text.mem_trim_of_mem hmem rfl),
    fun hmem => hkey.colon (Text.mem_trim_of_mem hmem rfl)⟩

namespace Statement

variable {text rest : List Char}

theorem unquotes_unquote (text : List Char) : Unquotes text (unquote text) := by
  cases text with
  | nil => exact .plain fun quote inner _ => nofun
  | cons quote rest =>
    rw [unquote]
    split
    · next h =>
      simp only [Bool.and_eq_true, Bool.or_eq_true, decide_eq_true_eq] at h
      obtain ⟨inner, rfl⟩ := List.getLast?_eq_some_iff.1 h.2
      rw [List.dropLast_concat]
      exact .quoted h.1 rfl
    · next h =>
      simp only [Bool.and_eq_true, Bool.or_eq_true, decide_eq_true_eq] at h
      refine .plain fun other inner hquote heq => h ?_
      obtain ⟨rfl, rfl⟩ := List.cons.inj heq
      exact ⟨hquote, List.getLast?_concat⟩

theorem unquote_eq_iff {first : List Char} : unquote text = first ↔ Unquotes text first := by
  constructor
  · rintro rfl
    exact unquotes_unquote text
  · intro h
    cases h with
    | quoted hquote h =>
      rw [h, unquote, List.getLast?_concat, List.dropLast_concat]
      rw [if_pos (by simpa using hquote)]
    | plain h =>
      have hunquotes := unquotes_unquote text
      generalize unquote text = other at hunquotes
      cases hunquotes with
      | quoted hquote heq => exact absurd heq (h _ _ hquote)
      | plain => rfl

theorem ofBody_eq_header_iff {name : String} :
    ofBody text = .ok (.header name) ↔ ∃ inner, text = headerLine inner ∧
      Text.trim inner ≠ [] ∧ name = String.ofList (Text.trim inner) := by
  constructor
  · intro h
    by_cases hbracket : text.head? = some '['
    · obtain ⟨rest, rfl⟩ := List.head?_eq_some_iff.1 hbracket
      obtain ⟨inner, rfl, hname, hheader⟩ := header?_eq_ok_iff.1 h
      cases hheader
      exact ⟨inner, rfl, hname, rfl⟩
    · rw [ofBody_of_head_ne hbracket] at h
      obtain ⟨_, _, -, -, hassignment⟩ := assignment?_eq_ok_iff.1 h
      cases hassignment
  · rintro ⟨inner, rfl, hname, rfl⟩
    exact header?_eq_ok_iff.2 ⟨inner, rfl, hname, rfl⟩

theorem ofBody_eq_assignment_iff (hname : IsName text)
    (hhead : ∀ c, text.head? = some c → c ≠ '#' ∧ c ≠ ';') {key : String} {first : List Char} :
    ofBody text = .ok (.assignment key first) ↔ ∃ before separator after,
      text = before ++ separator :: after ∧ (separator = '=' ∨ separator = ':') ∧
        IsKey (Text.trim before) ∧ key = String.ofList (Text.trim before) ∧
        Unquotes (Text.trim after) first := by
  constructor
  · intro h
    have hformed := wellFormed_ofBody hname hhead h
    by_cases hbracket : text.head? = some '['
    · obtain ⟨rest, rfl⟩ := List.head?_eq_some_iff.1 hbracket
      obtain ⟨_, -, -, hheader⟩ := header?_eq_ok_iff.1 h
      cases hheader
    · rw [ofBody_of_head_ne hbracket] at h
      obtain ⟨before, after, hcut, -, hassignment⟩ := assignment?_eq_ok_iff.1 h
      cases hassignment
      cases hformed with
      | assignment hkey hvalue =>
        rw [String.toList_ofList] at hkey
        obtain ⟨separator, hseparator, htext, -⟩ := Text.cutFirst_eq_some hcut
        exact ⟨before, separator, after, htext, isSeparator_iff.1 hseparator, hkey, rfl,
          unquotes_unquote _⟩
  · rintro ⟨before, separator, after, htext, hseparator, hkey, rfl, hfirst⟩
    have hbracket : text.head? ≠ some '[' := by
      rw [← head_trim_before htext hname.trimmed hkey.ne_nil]
      exact fun hkeyhead => (hkey.head '[' hkeyhead).1 rfl
    have hcut : Text.cutFirst isSeparator text = some (before, after) := by
      rw [htext, Text.cutFirst_append hkey.forall_not_isSeparator (isSeparator_iff.2 hseparator)]
    rw [ofBody_of_head_ne hbracket, assignment?_eq_ok_iff, ← unquote_eq_iff.2 hfirst]
    exact ⟨before, after, hcut, hkey.ne_nil, rfl⟩

/-- An assignment counts as one on an indented line if its key has no blanks. -/
theorem isAssignment_iff_of_isKey {before after : List Char} {separator : Char}
    (htext : text = before ++ separator :: after) (hseparator : separator = '=' ∨ separator = ':')
    (hkey : IsKey (Text.trim before)) :
    isAssignment text = true ↔ ∀ c ∈ Text.trim before, Text.isBlank c = false := by
  rw [isAssignment, htext, Text.cutFirst_append (hkey.forall_not_isSeparator)
    (isSeparator_iff.2 hseparator)]
  simp [hkey.ne_nil]

theorem exists_cut_of_isAssignment (h : isAssignment text = true) :
    ∃ before after, Text.cutFirst isSeparator text = some (before, after) ∧
      Text.trim before ≠ [] := by
  rw [isAssignment] at h
  cases hcut : Text.cutFirst isSeparator text with
  | none =>
    rw [hcut] at h
    cases h
  | some halves =>
    obtain ⟨before, after⟩ := halves
    rw [hcut] at h
    simp only [Bool.and_eq_true, decide_eq_true_eq] at h
    exact ⟨before, after, rfl, h.1⟩

theorem ofBody_of_isAssignment (h : isAssignment text = true) (hhead : text.head? ≠ some '[') :
    ∃ key first, ofBody text = .ok (.assignment key first) := by
  obtain ⟨before, after, hcut, hkey⟩ := exists_cut_of_isAssignment h
  rw [ofBody_of_head_ne hhead]
  exact ⟨_, _, assignment?_eq_ok_iff.2 ⟨before, after, hcut, hkey, rfl⟩⟩

/-- A separator between brackets is a name, or part of one. -/
theorem ofBody_of_bracket (h : isAssignment ('[' :: rest) = true) :
    (∃ name, ofBody ('[' :: rest) = .ok (.header name)) ∨
      ofBody ('[' :: rest) = .error .unclosedHeader := by
  obtain ⟨before, after, hcut, hkey⟩ := exists_cut_of_isAssignment h
  obtain ⟨c, hc, htext, -⟩ := Text.cutFirst_eq_some hcut
  have hseparator : c ∈ rest ∧ c ≠ ']' ∧ Text.isBlank c = false := by
    refine ⟨?_, ?_⟩
    · cases before with
      | nil => exact absurd rfl hkey
      | cons d more =>
        rw [(List.cons.inj htext).2]
        exact List.mem_append_right _ List.mem_cons_self
    · rcases isSeparator_iff.1 hc with rfl | rfl
      · exact ⟨by decide, rfl⟩
      · exact ⟨by decide, rfl⟩
  by_cases hlast : rest.getLast? = some ']'
  · obtain ⟨inner, rfl⟩ := List.getLast?_eq_some_iff.1 hlast
    have hmem : c ∈ inner := by
      rcases List.mem_append.1 hseparator.1 with hinner | hclose
      · exact hinner
      · exact absurd (List.mem_singleton.1 hclose) hseparator.2.1
    have hname : Text.trim inner ≠ [] := by
      intro hnil
      have hblank := Text.trim_eq_nil_iff.1 hnil c hmem
      rw [hseparator.2.2] at hblank
      cases hblank
    exact .inl ⟨_, ofBody_eq_header_iff.2 ⟨inner, rfl, hname, rfl⟩⟩
  · right
    show header? rest = _
    rw [header?, if_neg hlast]

end Statement

end LayeredConfig
