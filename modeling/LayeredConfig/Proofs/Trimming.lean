import LayeredConfig.Text.Basic

/-!
# Trimmed text, lines and pieces

A text is trimmed if trimming leaves it alone, which is to say that neither its
first nor its last character is a blank. Blanks around a trimmed text come off
again. Lines and pieces that hold no newline and no separator come back when
what they were joined to is taken apart.
-/

namespace LayeredConfig.Text

section Trim

variable {text : List Char}

theorem trimStart_eq_self_iff :
    trimStart text = text ↔ ∀ c, text.head? = some c → isBlank c = false := by
  cases text with
  | nil => simp [trimStart]
  | cons c rest =>
    cases hc : isBlank c with
    | false => simp [trimStart, hc]
    | true =>
      have hshorter : rest.dropWhile isBlank ≠ c :: rest := by
        intro heq
        have hlength := (List.dropWhile_sublist isBlank (l := rest)).length_le
        rw [heq, List.length_cons] at hlength
        omega
      simp [trimStart, hc, hshorter]

theorem trimEnd_eq : trimEnd text = (trimStart text.reverse).reverse := rfl

theorem trimEnd_eq_self_iff :
    trimEnd text = text ↔ ∀ c, text.getLast? = some c → isBlank c = false := by
  rw [trimEnd_eq, List.reverse_eq_iff, trimStart_eq_self_iff, List.head?_reverse]

theorem trimStart_blank_append {blanks : List Char} (h : ∀ c ∈ blanks, isBlank c = true)
    (text : List Char) : trimStart (blanks ++ text) = trimStart text :=
  List.dropWhile_append_of_pos h

theorem trimEnd_append_blank {blanks : List Char} (h : ∀ c ∈ blanks, isBlank c = true)
    (text : List Char) : trimEnd (text ++ blanks) = trimEnd text := by
  rw [trimEnd_eq, List.reverse_append, trimStart_blank_append]
  · rfl
  · intro c hc
    exact h c (List.mem_reverse.1 hc)

theorem length_trimStart_le (text : List Char) : (trimStart text).length ≤ text.length :=
  (List.dropWhile_sublist isBlank).length_le

theorem mem_of_mem_trimStart {c : Char} (h : c ∈ trimStart text) : c ∈ text :=
  (List.dropWhile_sublist isBlank).subset h

theorem mem_of_mem_trimEnd {c : Char} (h : c ∈ trimEnd text) : c ∈ text := by
  rw [trimEnd_eq, List.mem_reverse] at h
  exact List.mem_reverse.1 (mem_of_mem_trimStart h)

theorem mem_of_mem_trim {c : Char} (h : c ∈ trim text) : c ∈ text :=
  mem_of_mem_trimEnd (mem_of_mem_trimStart h)

theorem head_trimStart {c : Char} (h : (trimStart text).head? = some c) : isBlank c = false := by
  have hfirst := List.head?_dropWhile_not isBlank text
  rw [show (text.dropWhile isBlank).head? = some c from h] at hfirst
  exact hfirst

theorem getLast?_trimStart {c : Char} (h : (trimStart text).getLast? = some c) :
    text.getLast? = some c := by
  have hsplit := List.takeWhile_append_dropWhile (p := isBlank) (l := text)
  rw [← hsplit, List.getLast?_append, show (text.dropWhile isBlank).getLast? = some c from h]
  rfl

theorem getLast_trimEnd {c : Char} (h : (trimEnd text).getLast? = some c) :
    isBlank c = false := by
  rw [trimEnd_eq, List.getLast?_reverse] at h
  exact head_trimStart h

theorem exists_blanks_after (text : List Char) :
    ∃ blanks, text = trimEnd text ++ blanks ∧ ∀ c ∈ blanks, isBlank c = true := by
  have hsplit := List.takeWhile_append_dropWhile (p := isBlank) (l := text.reverse)
  refine ⟨(text.reverse.takeWhile isBlank).reverse, ?_, ?_⟩
  · rw [trimEnd, ← List.reverse_append, hsplit, List.reverse_reverse]
  · intro c hc
    exact List.all_eq_true.1 List.all_takeWhile c (List.mem_reverse.1 hc)

theorem head?_trim {c : Char} (h : text.head? = some c) (hc : isBlank c = false) :
    (trim text).head? = some c := by
  obtain ⟨blanks, htext, hblanks⟩ := exists_blanks_after text
  have hend : (trimEnd text).head? = some c := by
    cases hfront : trimEnd text with
    | nil =>
      rw [hfront, List.nil_append] at htext
      have hblank := hblanks c (htext ▸ List.mem_of_head? h)
      rw [hc] at hblank
      cases hblank
    | cons d rest =>
      rw [htext, hfront] at h
      exact h
  have hstart : trimStart (trimEnd text) = trimEnd text := by
    rw [trimStart_eq_self_iff]
    intro d hd
    rw [hend] at hd
    cases hd
    exact hc
  rw [trim, hstart, hend]

theorem trim_eq_self_iff :
    trim text = text ↔ (∀ c, text.head? = some c → isBlank c = false) ∧
      ∀ c, text.getLast? = some c → isBlank c = false := by
  rw [← trimStart_eq_self_iff, ← trimEnd_eq_self_iff]
  constructor
  · intro h
    have hlength : text.length ≤ (trimEnd text).length := by
      have hle := length_trimStart_le (trimEnd text)
      rw [show trimStart (trimEnd text) = text from h] at hle
      exact hle
    have hend : trimEnd text = text := by
      have hsublist : (trimStart text.reverse).Sublist text.reverse :=
        List.dropWhile_sublist isBlank
      have heq := hsublist.eq_of_length_le (by
        rw [trimEnd_eq, List.length_reverse] at hlength
        rw [List.length_reverse]
        exact hlength)
      rw [trimEnd_eq, heq, List.reverse_reverse]
    refine ⟨?_, hend⟩
    rw [trim, hend] at h
    exact h
  · rintro ⟨hstart, hend⟩
    rw [trim, hend, hstart]

/-- A text without blanks and commas. -/
def Plain (text : List Char) : Prop :=
  ∀ c ∈ text, isBlank c = false ∧ c ≠ ','

instance (text : List Char) : Decidable (Plain text) :=
  List.decidableBAll (fun c => isBlank c = false ∧ c ≠ ',') text

theorem Plain.trim_eq (h : Plain text) : trim text = text :=
  trim_eq_self_iff.2
    ⟨fun c hc => (h c (List.mem_of_head? hc)).1, fun c hc => (h c (List.mem_of_getLast? hc)).1⟩

theorem trim_trim (text : List Char) : trim (trim text) = trim text := by
  rw [trim_eq_self_iff]
  exact ⟨fun c => head_trimStart, fun c hc => getLast_trimEnd (getLast?_trimStart hc)⟩

/-- A trimmed text protects what stands before it. -/
theorem trimEnd_append_self (hne : text ≠ []) (htrim : trim text = text) (before : List Char) :
    trimEnd (before ++ text) = before ++ text := by
  rw [trimEnd_eq_self_iff]
  intro c hc
  have hlast := List.getLast?_eq_some_getLast hne
  rw [List.getLast?_append, hlast, Option.some_or] at hc
  exact (trim_eq_self_iff.1 htrim).2 c (hlast.trans hc)

/-- Blanks around a trimmed text that is not empty come off again. -/
theorem trim_pad (hne : text ≠ []) (htrim : trim text = text) {before after : List Char}
    (hbefore : ∀ c ∈ before, isBlank c = true) (hafter : ∀ c ∈ after, isBlank c = true) :
    trim (before ++ text ++ after) = text := by
  rw [trim, trimEnd_append_blank hafter, trimEnd_append_self hne htrim,
    trimStart_blank_append hbefore]
  exact trimStart_eq_self_iff.2 (trim_eq_self_iff.1 htrim).1

theorem trim_append_blank {blanks : List Char} (h : ∀ c ∈ blanks, isBlank c = true)
    (text : List Char) : trim (text ++ blanks) = trim text := by
  rw [trim, trimEnd_append_blank h, trim]

theorem exists_blanks_around (text : List Char) :
    ∃ before after, text = before ++ trim text ++ after ∧
      (∀ c ∈ before, isBlank c = true) ∧ ∀ c ∈ after, isBlank c = true := by
  obtain ⟨after, htext, hafter⟩ := exists_blanks_after text
  refine ⟨(trimEnd text).takeWhile isBlank, after, ?_, ?_, hafter⟩
  · rw [trim, trimStart, List.takeWhile_append_dropWhile, ← htext]
  · exact List.all_eq_true.1 List.all_takeWhile

theorem trim_eq_nil_iff : trim text = [] ↔ ∀ c ∈ text, isBlank c = true := by
  constructor
  · intro h
    obtain ⟨before, after, htext, hbefore, hafter⟩ := exists_blanks_around text
    rw [h, List.append_nil] at htext
    rw [htext]
    exact fun c hc => (List.mem_append.1 hc).elim (hbefore c) (hafter c)
  · intro h
    have hend : trim ([] ++ text) = trim [] := trim_append_blank h []
    exact hend

theorem trim_blank_append {blanks : List Char} (h : ∀ c ∈ blanks, isBlank c = true)
    (text : List Char) : trim (blanks ++ text) = trim text := by
  obtain ⟨before, after, htext, hbefore, hafter⟩ := exists_blanks_around text
  by_cases hne : trim text = []
  · rw [hne, trim_eq_nil_iff]
    exact fun c hc => (List.mem_append.1 hc).elim (h c) (trim_eq_nil_iff.1 hne c)
  · have hmore : ∀ c ∈ blanks ++ before, isBlank c = true := fun c hc =>
      (List.mem_append.1 hc).elim (h c) (hbefore c)
    have hpad := trim_pad hne (trim_trim text) hmore hafter
    rwa [List.append_assoc, List.append_assoc, ← List.append_assoc before, ← htext] at hpad

theorem trim_joined {before after : List Char} (hne : before ≠ []) (hbefore : trim before = before)
    (hafter : trim after = after) {c : Char} (hc : isBlank c = false) :
    trim (before ++ c :: after) = before ++ c :: after := by
  obtain ⟨first, rest, rfl⟩ := List.exists_cons_of_ne_nil hne
  rw [trim_eq_self_iff] at hbefore hafter ⊢
  constructor
  · intro d hd
    exact hbefore.1 d hd
  · intro d hd
    cases hlast : after.getLast? with
    | none =>
      rw [List.getLast?_append, List.getLast?_cons, hlast] at hd
      cases hd
      exact hc
    | some last =>
      rw [List.getLast?_append, List.getLast?_cons, hlast] at hd
      cases hd
      exact hafter.2 last hlast

end Trim

section Lines

theorem lines_append_newline {line : List Char} (h : '\n' ∉ line) (rest : List Char) :
    lines (line ++ '\n' :: rest) = line :: lines rest := by
  induction line with
  | nil => simp [lines]
  | cons c more ih =>
    have hc : c ≠ '\n' := fun heq => h (heq ▸ List.mem_cons_self)
    have hmore : '\n' ∉ more := fun hmem => h (List.mem_cons_of_mem c hmem)
    rw [List.cons_append, lines, if_neg hc, ih hmore]

theorem lines_flatMap {written : List (List Char)} (h : ∀ line ∈ written, '\n' ∉ line) :
    lines (written.flatMap fun line => line ++ ['\n']) = written := by
  induction written with
  | nil => rfl
  | cons line rest ih =>
    obtain ⟨hline, hrest⟩ := List.forall_mem_cons.1 h
    rw [List.flatMap_cons, List.append_assoc, List.singleton_append, lines_append_newline hline,
      ih hrest]

theorem newline_not_mem_lines (text : List Char) : ∀ line ∈ lines text, '\n' ∉ line := by
  induction text with
  | nil => simp [lines]
  | cons c rest ih =>
    rw [lines]
    split
    · simpa using ih
    · next hc =>
      split
      · simpa using Ne.symm hc
      · next line more hlines =>
        rw [hlines] at ih
        obtain ⟨hline, hmore⟩ := List.forall_mem_cons.1 ih
        refine List.forall_mem_cons.2 ⟨?_, hmore⟩
        simpa using ⟨Ne.symm hc, hline⟩

theorem lines_ne_nil {text : List Char} (h : text ≠ []) : lines text ≠ [] := by
  cases text with
  | nil => exact absurd rfl h
  | cons c rest =>
    rw [lines]
    split
    · exact List.cons_ne_nil _ _
    · split
      · exact List.cons_ne_nil _ _
      · exact List.cons_ne_nil _ _

theorem lines_append_newline_append (text rest : List Char) :
    lines (text ++ '\n' :: rest) = lines (text ++ ['\n']) ++ lines rest := by
  induction text with
  | nil => simp [lines]
  | cons c more ih =>
    rw [List.cons_append, List.cons_append, lines, lines]
    split
    · rw [ih, List.cons_append]
    · rw [ih]
      cases hlines : lines (more ++ ['\n']) with
      | nil => exact absurd hlines (lines_ne_nil (by simp))
      | cons line others => rfl

theorem lines_concat_newline (text : List Char) :
    lines (text ++ ['\n']) = lines text ∨ lines (text ++ ['\n']) = lines text ++ [[]] := by
  induction text with
  | nil => exact .inr rfl
  | cons c more ih =>
    rw [List.cons_append, lines, lines]
    split
    · rcases ih with ih | ih
      · exact .inl (by rw [ih])
      · exact .inr (by rw [ih, List.cons_append])
    · cases hmore : more with
      | nil => exact .inl rfl
      | cons d others =>
        rw [← hmore]
        cases hlines : lines more with
        | nil => exact absurd hlines (lines_ne_nil (by simp [hmore]))
        | cons line after =>
          rw [hlines] at ih
          rcases ih with ih | ih
          · exact .inl (by rw [ih])
          · exact .inr (by rw [ih]; rfl)

end Lines

section Pieces

variable {separator : Char}

theorem cut_of_not_mem {piece : List Char} (h : separator ∉ piece) :
    cut separator piece = [piece] := by
  induction piece with
  | nil => rfl
  | cons c more ih =>
    have hc : c ≠ separator := fun heq => h (heq ▸ List.mem_cons_self)
    have hmore : separator ∉ more := fun hmem => h (List.mem_cons_of_mem c hmem)
    rw [cut, if_neg hc, ih hmore]

theorem cut_append {piece : List Char} (h : separator ∉ piece) (rest : List Char) :
    cut separator (piece ++ separator :: rest) = piece :: cut separator rest := by
  induction piece with
  | nil => simp [cut]
  | cons c more ih =>
    have hc : c ≠ separator := fun heq => h (heq ▸ List.mem_cons_self)
    have hmore : separator ∉ more := fun hmem => h (List.mem_cons_of_mem c hmem)
    rw [List.cons_append, cut, if_neg hc, ih hmore]

theorem cut_intercalate {first : List Char} {rest : List (List Char)}
    (hfirst : separator ∉ first) (hrest : ∀ piece ∈ rest, separator ∉ piece) :
    cut separator ([separator].intercalate (first :: rest)) = first :: rest := by
  induction rest generalizing first with
  | nil =>
    rw [List.intercalate_singleton]
    exact cut_of_not_mem hfirst
  | cons second more ih =>
    obtain ⟨hsecond, hmore⟩ := List.forall_mem_cons.1 hrest
    rw [List.intercalate_cons_cons, List.append_assoc, List.singleton_append, cut_append hfirst,
      ih hsecond hmore]

theorem separator_not_mem_cut (text : List Char) :
    ∀ piece ∈ cut separator text, separator ∉ piece := by
  induction text with
  | nil => simp [cut]
  | cons c rest ih =>
    rw [cut]
    split
    · simpa using ih
    · next hc =>
      split
      · simpa using Ne.symm hc
      · next piece more hcut =>
        rw [hcut] at ih
        obtain ⟨hpiece, hmore⟩ := List.forall_mem_cons.1 ih
        refine List.forall_mem_cons.2 ⟨?_, hmore⟩
        simpa using ⟨Ne.symm hc, hpiece⟩

theorem cut_append_left {before : List Char} (h : separator ∉ before) (text : List Char) :
    ∃ first rest, cut separator text = first :: rest ∧
      cut separator (before ++ text) = (before ++ first) :: rest := by
  obtain ⟨first, rest, hcut⟩ := List.exists_cons_of_ne_nil (cut_ne_nil separator text)
  refine ⟨first, rest, hcut, ?_⟩
  induction before with
  | nil => exact hcut
  | cons c more ih =>
    have hc : c ≠ separator := fun heq => h (heq ▸ List.mem_cons_self)
    have hmore : separator ∉ more := fun hmem => h (List.mem_cons_of_mem c hmem)
    rw [List.cons_append, cut, if_neg hc, ih hmore, List.cons_append]

theorem cut_append_right {after : List Char} (h : separator ∉ after) (text : List Char) :
    ∃ init last, cut separator text = init ++ [last] ∧
      cut separator (text ++ after) = init ++ [last ++ after] := by
  induction text with
  | nil => exact ⟨[], [], rfl, cut_of_not_mem h⟩
  | cons c rest ih =>
    obtain ⟨init, last, hcut, happended⟩ := ih
    rw [List.cons_append, cut, cut, hcut, happended]
    by_cases hc : c = separator
    · rw [if_pos hc, if_pos hc]
      exact ⟨[] :: init, last, rfl, rfl⟩
    · rw [if_neg hc, if_neg hc]
      cases init with
      | nil => exact ⟨[], c :: last, rfl, rfl⟩
      | cons piece more => exact ⟨(c :: piece) :: more, last, rfl, rfl⟩

theorem map_trim_cut_trim (h : isBlank separator = false) (text : List Char) :
    (cut separator (trim text)).map trim = (cut separator text).map trim := by
  obtain ⟨before, after, htext, hbefore, hafter⟩ := exists_blanks_around text
  have hnone : ∀ {blanks : List Char}, (∀ c ∈ blanks, isBlank c = true) → separator ∉ blanks :=
    fun hblanks hmem => by simp [hblanks separator hmem] at h
  obtain ⟨init, last, hcut, hright⟩ := cut_append_right (hnone hafter) (before ++ trim text)
  obtain ⟨first, rest, hfirst, hleft⟩ := cut_append_left (hnone hbefore) (trim text)
  calc (cut separator (trim text)).map trim
      = (cut separator (before ++ trim text)).map trim := by
        rw [hfirst, hleft, List.map_cons, List.map_cons, trim_blank_append hbefore]
    _ = (cut separator (before ++ trim text ++ after)).map trim := by
        rw [hcut, hright, List.map_append, List.map_append, List.map_singleton,
          List.map_singleton, trim_append_blank hafter]
    _ = (cut separator text).map trim := by rw [← htext]

end Pieces

end LayeredConfig.Text
