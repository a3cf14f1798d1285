import LayeredConfig.Proofs.Trimming
import LayeredConfig.Proofs.HasKind

/-!
# Rows and pairs in text

A text holds a row of pieces, and `IsRow` says which rows those are: their
pieces are trimmed and hold no comma, and a row is not a single empty piece,
because blank text has no pieces. Every such row comes back from the text that
it is joined to.

A piece is read as a pair at its first colon, or it is to blame for something
(`Blamed`): for the lack of a colon or of a name, for a name that the table has,
or for a value that does not convert. These are looked for in this order. Pairs
with different names go into a table one by one, and the pairs of a table read
in its order make the table again.
-/

namespace LayeredConfig

/-- A text that can stand between two commas. -/
structure IsPiece (piece : List Char) : Prop where
  trimmed : Text.trim piece = piece
  no_comma : ',' ∉ piece

/-- A row of pieces that a text can hold. -/
structure IsRow (row : List (List Char)) : Prop where
  pieces : ∀ piece ∈ row, IsPiece piece
  visible : row ≠ [[]]

namespace IsPiece

variable {piece : List Char}

theorem of_plain (h : Text.Plain piece) : IsPiece piece where
  trimmed := h.trim_eq
  no_comma := fun hcomma => (h ',' hcomma).2 rfl

theorem of_trim {text : List Char} (h : ',' ∉ text) : IsPiece (Text.trim text) where
  trimmed := Text.trim_trim text
  no_comma := fun hcomma => h (Text.mem_of_mem_trim hcomma)

theorem joined {after : List Char} (h : IsPiece piece) (hne : piece ≠ []) (hafter : IsPiece after)
    {c : Char} (hblank : Text.isBlank c = false) (hcomma : c ≠ ',') :
    IsPiece (piece ++ c :: after) where
  trimmed := Text.trim_joined hne h.trimmed hafter.trimmed hblank
  no_comma := by
    intro hmem
    rcases List.mem_append.1 hmem with hmem | hmem
    · exact h.no_comma hmem
    · rcases List.mem_cons.1 hmem with heq | hmem
      · exact hcomma heq.symm
      · exact hafter.no_comma hmem

theorem trimmed_ofList (h : IsPiece piece) : Text.trimmed (String.ofList piece) = piece := by
  rw [Text.trimmed, String.toList_ofList, h.trimmed]

end IsPiece

namespace Kind

theorem pieces_of_visible {text : String} (h : Text.trimmed text ≠ []) :
    pieces text = (Text.cut ',' text.toList).map Text.trim := by
  rw [pieces]
  simp only [if_neg h]
  exact Text.map_trim_cut_trim (by decide) text.toList

theorem pieces_of_blank {text : String} (h : Text.trimmed text = []) : pieces text = [] :=
  if_pos h

theorem pieces_ne_nil {text : String} (h : Text.trimmed text ≠ []) : pieces text ≠ [] := by
  rw [pieces_of_visible h]
  intro hnil
  exact Text.cut_ne_nil ',' text.toList (List.map_eq_nil_iff.1 hnil)

/-- The pieces of a text are a row. -/
theorem isRow_pieces (text : String) : IsRow (pieces text) := by
  by_cases hblank : Text.trimmed text = []
  · rw [pieces_of_blank hblank]
    exact ⟨List.forall_mem_nil IsPiece, (List.cons_ne_nil [] []).symm⟩
  · rw [pieces_of_visible hblank]
    constructor
    · intro piece hpiece
      obtain ⟨raw, hraw, rfl⟩ := List.mem_map.1 hpiece
      exact .of_trim (Text.separator_not_mem_cut text.toList raw hraw)
    · intro hsingle
      obtain ⟨raw, hraw, hempty⟩ := List.map_eq_singleton_iff.1 hsingle
      have hjoined := Text.intercalate_cut ',' text.toList
      rw [hraw, List.intercalate_singleton] at hjoined
      exact hblank (by rw [Text.trimmed, ← hjoined, hempty])

theorem pieces_of_isPiece {piece : List Char} (h : IsPiece piece) (hne : piece ≠ []) :
    pieces (String.ofList piece) = [piece] := by
  rw [pieces_of_visible (by rw [h.trimmed_ofList]; exact hne), String.toList_ofList,
    Text.cut_of_not_mem h.no_comma, List.map_singleton, h.trimmed]

section Joined

variable {first : List Char} {rest : List (List Char)}

theorem intercalate_comma_blank (first : List Char) (rest : List (List Char)) :
    [',', ' '].intercalate (first :: rest) =
      [','].intercalate (first :: rest.map fun piece => ' ' :: piece) := by
  induction rest generalizing first with
  | nil => rfl
  | cons second more ih =>
    rw [List.intercalate_cons_cons, ih, List.map_cons, List.intercalate_cons_cons]
    cases more with
    | nil => simp
    | cons third others => simp [List.intercalate_cons_cons]

theorem cut_joined (h : IsRow (first :: rest)) :
    Text.cut ',' ([',', ' '].intercalate (first :: rest)) =
      first :: rest.map fun piece => ' ' :: piece := by
  obtain ⟨hfirst, hrest⟩ := List.forall_mem_cons.1 h.pieces
  rw [intercalate_comma_blank]
  apply Text.cut_intercalate hfirst.no_comma
  intro piece hpiece hcomma
  obtain ⟨text, htext, rfl⟩ := List.mem_map.1 hpiece
  simp [(hrest text htext).no_comma] at hcomma

theorem visible_joined (h : IsRow (first :: rest)) :
    Text.trim ([',', ' '].intercalate (first :: rest)) ≠ [] := by
  have hfirst := h.pieces first List.mem_cons_self
  intro hblank
  cases rest with
  | nil =>
    rw [List.intercalate_singleton, hfirst.trimmed] at hblank
    exact h.visible (by rw [hblank])
  | cons second more =>
    have hcomma : Text.isBlank ',' = true := by
      apply Text.trim_eq_nil_iff.1 hblank
      simp [List.intercalate_cons_cons]
    cases hcomma

end Joined

/-- A row comes back from the text that it is joined to. -/
theorem pieces_intercalate {row : List String} (h : IsRow (row.map String.toList)) :
    pieces (", ".intercalate row) = row.map String.toList := by
  have htext : (", ".intercalate row).toList = [',', ' '].intercalate (row.map String.toList) :=
    String.toList_intercalate
  generalize row.map String.toList = texts at h htext ⊢
  cases texts with
  | nil => exact pieces_of_blank (by rw [Text.trimmed, htext]; rfl)
  | cons first rest =>
    obtain ⟨hfirst, hrest⟩ := List.forall_mem_cons.1 h.pieces
    have hvisible : Text.trimmed (", ".intercalate row) ≠ [] := by
      rw [Text.trimmed, htext]
      exact visible_joined h
    have hblank : ∀ piece ∈ rest, Text.trim (' ' :: piece) = piece := by
      intro piece hpiece
      have hspace : ∀ c ∈ [' '], Text.isBlank c = true := List.forall_mem_singleton.2 rfl
      exact (Text.trim_blank_append hspace piece).trans (hrest piece hpiece).trimmed
    rw [pieces_of_visible hvisible, htext, cut_joined h, List.map_cons, hfirst.trimmed,
      List.map_map]
    congr 1
    exact (List.map_congr_left hblank).trans (List.map_id rest)

/-- How a piece is read as a pair. -/
inductive ReadsPair (convert : String → Except ValueError Value) :
    List Char → String × Value → Prop
  | at_colon {before after : List Char} {value : Value} (hfirst : ':' ∉ before)
      (hname : Text.trim before ≠ [])
      (hvalue : convert (String.ofList (Text.trim after)) = .ok value) :
      ReadsPair convert (before ++ ':' :: after) (String.ofList (Text.trim before), value)

variable {convert : String → Except ValueError Value}

theorem ReadsPair.of_trimmed {name text : List Char} {value : Value} (hcolon : ':' ∉ name)
    (hne : name ≠ []) (hname : Text.trim name = name) (htext : Text.trim text = text)
    (hvalue : convert (String.ofList text) = .ok value) :
    ReadsPair convert (name ++ ':' :: text) (String.ofList name, value) := by
  have hpair : ReadsPair convert (name ++ ':' :: text) (String.ofList (Text.trim name), value) :=
    .at_colon hcolon (by rwa [hname]) (by rwa [htext])
  rwa [hname] at hpair

/-- What a piece is to blame for that stands behind pairs with these names. -/
inductive Blamed (convert : String → Except ValueError Value) (names : List String) :
    List Char → ValueError → Prop
  | no_colon {piece : List Char} (hnone : ':' ∉ piece) :
      Blamed convert names piece (.invalid "dict" (String.ofList piece))
  | no_name {before after : List Char} (hfirst : ':' ∉ before) (hname : Text.trim before = []) :
      Blamed convert names (before ++ ':' :: after)
        (.invalid "dict" (String.ofList (before ++ ':' :: after)))
  | repeated {before after : List Char} (hfirst : ':' ∉ before) (hname : Text.trim before ≠ [])
      (hknown : String.ofList (Text.trim before) ∈ names) :
      Blamed convert names (before ++ ':' :: after)
        (.duplicateKey (String.ofList (Text.trim before)))
  | value {before after : List Char} {e : ValueError} (hfirst : ':' ∉ before)
      (hname : Text.trim before ≠ []) (hnew : String.ofList (Text.trim before) ∉ names)
      (hvalue : convert (String.ofList (Text.trim after)) = .error e) :
      Blamed convert names (before ++ ':' :: after) e

section Step

variable {names : List String} {piece : List Char} {rest : List (List Char)}
  {table result : Table Value} {binding : String × Value} {e : ValueError}

theorem cutFirst_colon {before : List Char} (h : ':' ∉ before) (after : List Char) :
    Text.cutFirst (· = ':') (before ++ ':' :: after) = some (before, after) := by
  refine Text.cutFirst_append (fun c hc hcolon => ?_) (decide_eq_true rfl) after
  obtain rfl : c = ':' := of_decide_eq_true hcolon
  exact h hc

theorem cutFirst_colon_eq_none (h : ':' ∉ piece) : Text.cutFirst (· = ':') piece = none := by
  refine Text.cutFirst_eq_none_iff.2 fun c hc hcolon => ?_
  obtain rfl : c = ':' := of_decide_eq_true hcolon
  exact h hc

theorem ofList_trim_ne_empty {name : List Char} (h : Text.trim name ≠ []) :
    String.ofList (Text.trim name) ≠ "" :=
  fun hempty => h (String.ofList_eq_empty_iff.1 hempty)

theorem readsPair_or_blamed (convert : String → Except ValueError Value) (names : List String)
    (piece : List Char) :
    (∃ binding, ReadsPair convert piece binding ∧ binding.1 ∉ names) ∨
      ∃ e, Blamed convert names piece e := by
  by_cases hcolon : ':' ∈ piece
  · obtain ⟨before, after, rfl, hfirst⟩ := List.eq_append_cons_of_mem hcolon
    by_cases hname : Text.trim before = []
    · exact .inr ⟨_, .no_name hfirst hname⟩
    · by_cases hknown : String.ofList (Text.trim before) ∈ names
      · exact .inr ⟨_, .repeated hfirst hname hknown⟩
      · cases hvalue : convert (String.ofList (Text.trim after)) with
        | ok value => exact .inl ⟨_, .at_colon hfirst hname hvalue, hknown⟩
        | error e => exact .inr ⟨e, .value hfirst hname hknown hvalue⟩
  · exact .inr ⟨_, .no_colon hcolon⟩

theorem readPairs_of_readsPair (h : ReadsPair convert piece binding)
    (hnew : binding.1 ∉ table.keys) :
    readPairs convert table (piece :: rest) =
      readPairs convert (table.insert binding.1 binding.2) rest := by
  cases h with
  | at_colon hfirst hname hvalue =>
    have hunknown := mt Table.contains_iff_mem_keys.1 hnew
    simp only [readPairs, cutFirst_colon hfirst, if_neg (ofList_trim_ne_empty hname),
      if_neg hunknown, hvalue]
    rfl

theorem readPairs_of_blamed (h : Blamed convert table.keys piece e) :
    readPairs convert table (piece :: rest) = .error e := by
  cases h with
  | no_colon hnone =>
    simp only [readPairs, cutFirst_colon_eq_none hnone]
    rfl
  | no_name hfirst hname =>
    simp only [readPairs, cutFirst_colon hfirst, hname]
    rfl
  | repeated hfirst hname hknown =>
    have hcontains := Table.contains_iff_mem_keys.2 hknown
    simp only [readPairs, cutFirst_colon hfirst, if_neg (ofList_trim_ne_empty hname),
      if_pos hcontains]
  | value hfirst hname hnew hvalue =>
    have hunknown := mt Table.contains_iff_mem_keys.1 hnew
    simp only [readPairs, cutFirst_colon hfirst, if_neg (ofList_trim_ne_empty hname),
      if_neg hunknown, hvalue]
    rfl

theorem readPairs_cons_eq_ok_iff :
    readPairs convert table (piece :: rest) = .ok result ↔
      ∃ binding, ReadsPair convert piece binding ∧ table.contains binding.1 = false ∧
        readPairs convert (table.insert binding.1 binding.2) rest = .ok result := by
  constructor
  · intro h
    obtain ⟨binding, hpair, hnew⟩ | ⟨e, hblamed⟩ := readsPair_or_blamed convert table.keys piece
    · rw [readPairs_of_readsPair hpair hnew] at h
      exact ⟨binding, hpair, Bool.eq_false_iff.2 (mt Table.contains_iff_mem_keys.1 hnew), h⟩
    · rw [readPairs_of_blamed hblamed] at h
      cases h
  · rintro ⟨binding, hpair, hnew, hrest⟩
    have hunknown := mt Table.contains_iff_mem_keys.2 (Bool.eq_false_iff.1 hnew)
    rw [readPairs_of_readsPair hpair hunknown, hrest]

end Step

/-- Pairs are read if each piece is one, with names that differ from each other and from those of
the table. -/
theorem readPairs_eq_ok_iff {pieces : List (List Char)} {table result : Table Value} :
    readPairs convert table pieces = .ok result ↔
      ∃ bindings, List.Forall₂ (ReadsPair convert) pieces bindings ∧
        (bindings.map Prod.fst).Nodup ∧ (∀ b ∈ bindings, table.contains b.1 = false) ∧
        bindings.foldl (fun table b => table.insert b.1 b.2) table = result := by
  induction pieces generalizing table with
  | nil =>
    constructor
    · rintro ⟨⟩
      exact ⟨[], .nil, List.nodup_nil, List.forall_mem_nil _, rfl⟩
    · rintro ⟨bindings, ⟨⟩, -, -, rfl⟩
      rfl
  | cons piece rest ih =>
    rw [readPairs_cons_eq_ok_iff]
    constructor
    · rintro ⟨binding, hpair, hnew, hrest⟩
      obtain ⟨bindings, hpairs, hnodup, hothers, hresult⟩ := ih.1 hrest
      -- The names of the rest are new to a table that has this one, so they differ from it.
      have hapart : ∀ b ∈ bindings, b.1 ≠ binding.1 ∧ table.contains b.1 = false := by
        intro b hb
        have hb' := hothers b hb
        rw [Table.contains_insert, Bool.or_eq_false_iff] at hb'
        exact ⟨of_decide_eq_false hb'.1, hb'.2⟩
      refine ⟨binding :: bindings, .cons hpair hpairs, ?_, ?_, hresult⟩
      · refine List.nodup_cons.2 ⟨fun hmem => ?_, hnodup⟩
        obtain ⟨b, hb, hname⟩ := List.mem_map.1 hmem
        exact (hapart b hb).1 hname
      · exact List.forall_mem_cons.2 ⟨hnew, fun b hb => (hapart b hb).2⟩
    · rintro ⟨bindings, hpairs, hnodup, hnew, hresult⟩
      cases hpairs with
      | @cons _ binding _ others hpair hpairs =>
        obtain ⟨hname, hnodup⟩ := List.nodup_cons.1 hnodup
        obtain ⟨hfirst, hothers⟩ := List.forall_mem_cons.1 hnew
        refine ⟨binding, hpair, hfirst, ih.2 ⟨others, hpairs, hnodup, fun b hb => ?_, hresult⟩⟩
        rw [Table.contains_insert, hothers b hb, Bool.or_false]
        exact decide_eq_false fun heq => hname (heq ▸ List.mem_map_of_mem hb)

end Kind

end LayeredConfig
