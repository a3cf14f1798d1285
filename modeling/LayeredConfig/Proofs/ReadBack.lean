import LayeredConfig.Proofs.Double.Text
import LayeredConfig.Proofs.Pieces
import LayeredConfig.Proofs.Projection
import LayeredConfig.Value.Listing

/-!
# Listed values are read back

Whatever a text was read as, the listing of the value is read as the same value.
The listing joins items with a comma and a blank and sets a colon behind each
name, at every depth; the reader cuts at commas first, so it sees the innermost
joints before the outer ones. That the two agree rests on what the pieces of a
text are: an inner row or table was itself read from one piece, and so it has at
most one item, which is joined to nothing.

`ReadsBack` carries this through the kinds. Besides being read back, a value
that was read from a piece is listed as a piece, so that the joints around it
stay the only ones; and a value that was read from something is not listed as
blank, so that a row of one item is not taken for the empty row.
-/

namespace LayeredConfig

namespace Kind

/-- What the listing of a value that was read from a text keeps of the text. -/
structure ReadsBack (kind : Kind) (raw : String) (value : Value) : Prop where
  again : kind.convertString value.listed = .ok value
  visible : Text.trimmed raw ≠ [] → Text.trimmed value.listed ≠ []
  piece : IsPiece raw.toList → IsPiece value.listed.toList

section Words

variable {kind : Kind} {raw : String} {value : Value}

theorem ReadsBack.of_word (hne : value.listed.toList ≠ [])
    (hplain : Text.Plain value.listed.toList)
    (hagain : kind.convertString value.listed = .ok value) : kind.ReadsBack raw value where
  again := hagain
  visible _ := by
    rw [Text.trimmed, hplain.trim_eq]
    exact hne
  piece _ := .of_plain hplain

theorem readsBack_text {choices : Option (List String)}
    (hkind : ∀ value, kind.convert value = convertText choices value)
    (h : kind.convertString raw = .ok value) : kind.ReadsBack raw value := by
  have hvalue : value = .string raw := by
    rw [convertString, hkind, convertText.eq_def] at h
    simp only at h
    split at h
    · cases h
      rfl
    · split at h
      · cases h
        rfl
      · cases h
  subst hvalue
  exact ⟨h, id, id⟩

theorem readsBack_boolean (h : boolean.convertString raw = .ok value) :
    boolean.ReadsBack raw value := by
  cases hasKind_convert h with
  | @boolean b =>
    cases b
    · exact .of_word (by decide) (by decide) rfl
    · exact .of_word (by decide) (by decide) rfl

theorem plain_integerText (n : Int64) :
    Decimal.integerText n ≠ [] ∧ Text.Plain (Decimal.integerText n) := by
  have hdigits : Text.Plain (Nat.toDigits 10 n.toInt.natAbs) :=
    plain_toDigits (by decide) (by decide)
  rw [Decimal.integerText]
  split
  · refine ⟨List.cons_ne_nil _ _, fun c hc => ?_⟩
    rcases List.mem_cons.1 hc with rfl | hc
    · decide
    · exact hdigits c hc
  · exact ⟨Nat.toDigits_ne_nil, hdigits⟩

theorem readsBack_integer {min max : Option Int64}
    (h : (integer min max).convertString raw = .ok value) :
    (integer min max).ReadsBack raw value := by
  have hkind := hasKind_convert h
  cases hkind with
  | @integer _ _ n hmin hmax =>
    have hplain := plain_integerText n
    rw [← String.toList_ofList (l := Decimal.integerText n)] at hplain
    have htrimmed :
        Text.trimmed (String.ofList (Decimal.integerText n)) = Decimal.integerText n := by
      rw [Text.trimmed, hplain.2.trim_eq, String.toList_ofList]
    refine .of_word hplain.1 hplain.2 ?_
    rw [convertString, convert]
    refine convertInteger_of_some ?_ (.integer hmin hmax)
    simp only [Value.listed, integerOf?, htrimmed, Decimal.integer?_integerText]

theorem readsBack_float {min max : Option Float}
    (h : (float min max).convertString raw = .ok value) :
    (float min max).ReadsBack raw value := by
  have hkind := hasKind_convert h
  cases hkind with
  | @float _ _ x hnumber hmin hmax =>
    obtain ⟨hne, hplain⟩ := Decimal.plain_doubleText hnumber
    refine .of_word hne hplain ?_
    rw [convertString, convert]
    refine convertFloat_of_some ?_ (.float hnumber hmin hmax)
    have htrimmed : Text.trimmed (Decimal.doubleText Decimal.plainStyle x) =
        (Decimal.doubleText Decimal.plainStyle x).toList := hplain.trim_eq
    simp only [Value.listed, floatOf?, htrimmed, Decimal.double?_doubleText hnumber,
      Option.filter_some, hnumber]
    rfl

theorem readsBack_address {family : Option Family}
    (h : (address family).convertString raw = .ok value) :
    (address family).ReadsBack raw value := by
  have hkind := hasKind_convert h
  cases hkind with
  | @address _ a hfamily =>
    have hplain : Text.Plain (String.ofList a.text).toList := by
      rw [String.toList_ofList]
      exact a.plain_text
    have hne : (String.ofList a.text).toList ≠ [] := by
      intro hempty
      have hread := Address.read?_text a
      rw [← String.toList_ofList (l := a.text), hempty] at hread
      cases hread
    exact .of_word hne hplain (convert_of_hasKind (.address hfamily))

end Words

section Rows

variable {kind : Kind} {raw : String} {value : Value} {row : List String}

theorem visible_intercalate (h : IsRow (row.map String.toList))
    (hlength : row.length = (pieces raw).length) (hraw : Text.trimmed raw ≠ []) :
    Text.trimmed (", ".intercalate row) ≠ [] := by
  intro hblank
  have hnone := pieces_of_blank hblank
  rw [pieces_intercalate h, List.map_eq_nil_iff] at hnone
  rw [hnone, List.length_nil, eq_comm, List.length_eq_zero_iff] at hlength
  exact pieces_ne_nil hraw hlength

theorem isPiece_intercalate (h : IsRow (row.map String.toList))
    (hlength : row.length = (pieces raw).length) (hraw : IsPiece raw.toList) :
    IsPiece (", ".intercalate row).toList := by
  by_cases hempty : raw.toList = []
  · have hblank : Text.trimmed raw = [] := by
      rw [Text.trimmed, hempty]
      rfl
    rw [pieces_of_blank hblank, List.length_nil, List.length_eq_zero_iff] at hlength
    rw [hlength]
    exact .of_plain (List.forall_mem_nil _)
  · have hsingle := pieces_of_isPiece hraw hempty
    rw [String.ofList_toList] at hsingle
    rw [hsingle, List.length_singleton] at hlength
    obtain ⟨text, rfl⟩ := List.length_eq_one_iff.1 hlength
    rw [String.intercalate_singleton]
    exact h.pieces _ (by simp)

theorem ReadsBack.of_row (hlisted : value.listed = ", ".intercalate row)
    (hrow : IsRow (row.map String.toList)) (hlength : row.length = (pieces raw).length)
    (hagain : kind.convertString value.listed = .ok value) : kind.ReadsBack raw value where
  again := hagain
  visible hraw := by
    rw [hlisted]
    exact visible_intercalate hrow hlength hraw
  piece hraw := by
    rw [hlisted]
    exact isPiece_intercalate hrow hlength hraw

end Rows

section Items

variable {item : Kind} {texts : List (List Char)} {row : List Value}

theorem isRow_items (htexts : IsRow texts)
    (h : List.Forall₂ (fun text x => item.ReadsBack (String.ofList text) x) texts row) :
    IsRow ((row.map Value.listed).map String.toList) where
  pieces := by
    intro piece hpiece
    obtain ⟨shown, hshown, rfl⟩ := List.mem_map.1 hpiece
    obtain ⟨x, hx, rfl⟩ := List.mem_map.1 hshown
    obtain ⟨text, htext, hreads⟩ := exists_of_forall₂_of_mem h hx
    apply hreads.piece
    rw [String.toList_ofList]
    exact htexts.pieces text htext
  visible := by
    intro hsingle
    rw [List.map_map, List.map_eq_singleton_iff] at hsingle
    obtain ⟨x, rfl, hempty⟩ := hsingle
    obtain ⟨text, more, hreads, hmore, rfl⟩ := List.forall₂_cons_right_iff.1 h
    cases hmore
    have hpiece := htexts.pieces text List.mem_cons_self
    refine hreads.visible ?_ ?_
    · rw [hpiece.trimmed_ofList]
      rintro rfl
      exact htexts.visible rfl
    · rw [Text.trimmed, show x.listed.toList = [] from hempty]
      rfl

theorem mapM_listed
    (h : List.Forall₂ (fun text x => item.ReadsBack (String.ofList text) x) texts row) :
    ((row.map Value.listed).map String.toList).mapM
      (fun text => item.convert (.string (String.ofList text))) = .ok row := by
  rw [mapM_eq_ok_iff, List.map_map, List.forall₂_map_left_iff, List.forall₂_same]
  intro x hx
  obtain ⟨text, -, hreads⟩ := exists_of_forall₂_of_mem h hx
  rw [Function.comp_apply, String.ofList_toList]
  exact hreads.again

theorem readsBack_list {raw : String} {value : Value}
    (ih : ∀ raw value, item.convertString raw = .ok value → item.ReadsBack raw value)
    (h : (list item).convertString raw = .ok value) : (list item).ReadsBack raw value := by
  rw [convertString, convert] at h
  obtain ⟨row, hrow, rfl⟩ := map_eq_ok h
  have hback : List.Forall₂ (fun text x => item.ReadsBack (String.ofList text) x) (pieces raw)
      row :=
    (mapM_eq_ok_iff.1 hrow).imp fun text x => ih (String.ofList text) x
  have hlisted : (Value.array row).listed = ", ".intercalate (row.map Value.listed) := by
    rw [Value.listed, Value.listedItems_eq_map]
  have hisRow := isRow_items (isRow_pieces raw) hback
  have hlength : (row.map Value.listed).length = (pieces raw).length := by
    rw [List.length_map, hback.length_eq]
  refine .of_row hlisted hisRow hlength ?_
  rw [convertString, convert, hlisted, pieces_intercalate hisRow, mapM_listed hback]
  rfl

end Items

section Pairs

variable {field : Kind}

theorem ReadsPair.listed
    (ih : ∀ raw value, field.convertString raw = .ok value → field.ReadsBack raw value)
    {piece : List Char} {pair : String × Value} (hpiece : IsPiece piece)
    (h : ReadsPair field.convertString piece pair) :
    IsPiece (pair.1 ++ ":" ++ pair.2.listed).toList ∧
      ReadsPair field.convertString (pair.1 ++ ":" ++ pair.2.listed).toList pair := by
  cases h with
  | @at_colon before after value hfirst hname hvalue =>
    have hreads := ih _ _ hvalue
    have hbefore : ',' ∉ before := fun hcomma =>
      hpiece.no_comma (List.mem_append_left _ hcomma)
    have hafter : ',' ∉ after := fun hcomma =>
      hpiece.no_comma (List.mem_append_right _ (List.mem_cons_of_mem _ hcomma))
    have hcolon : ':' ∉ Text.trim before := fun hcolon => hfirst (Text.mem_of_mem_trim hcolon)
    have hlisted : IsPiece value.listed.toList := by
      apply hreads.piece
      rw [String.toList_ofList]
      exact .of_trim hafter
    have hagain : field.convertString (String.ofList value.listed.toList) = .ok value := by
      rw [String.ofList_toList]
      exact hreads.again
    have htext : (String.ofList (Text.trim before) ++ ":" ++ value.listed).toList =
        Text.trim before ++ ':' :: value.listed.toList := by
      simp
    simp only [htext]
    constructor
    · exact (IsPiece.of_trim hbefore).joined hname hlisted (by decide) (by decide)
    · exact .of_trimmed hcolon hname (Text.trim_trim before) hlisted.trimmed hagain

/-- A listed pair has a colon, so that it is not empty. -/
theorem isRow_pairs {pairs : List (String × Value)}
    (h : ∀ pair ∈ pairs, IsPiece (pair.1 ++ ":" ++ pair.2.listed).toList) :
    IsRow ((pairs.map fun pair => pair.1 ++ ":" ++ pair.2.listed).map String.toList) where
  pieces := by
    intro piece hpiece
    obtain ⟨shown, hshown, rfl⟩ := List.mem_map.1 hpiece
    obtain ⟨pair, hpair, rfl⟩ := List.mem_map.1 hshown
    exact h pair hpair
  visible := by
    intro hsingle
    rw [List.map_map, List.map_eq_singleton_iff] at hsingle
    obtain ⟨pair, -, hempty⟩ := hsingle
    simp at hempty

theorem readPairs_listed {table : Table Value} (h : ∀ pair ∈ table.toList,
      ReadsPair field.convertString (pair.1 ++ ":" ++ pair.2.listed).toList pair) :
    readPairs field.convertString Table.empty
      ((table.toList.map fun pair => pair.1 ++ ":" ++ pair.2.listed).map String.toList) =
        .ok table := by
  apply readPairs_eq_ok_iff.2
  refine ⟨table.toList, ?_, table.nodup_keys, fun _ _ => rfl, Table.ofList_toList table⟩
  rw [List.map_map, List.forall₂_map_left_iff, List.forall₂_same]
  exact h

theorem readsBack_dict {raw : String} {value : Value}
    (ih : ∀ raw value, field.convertString raw = .ok value → field.ReadsBack raw value)
    (h : (dict field).convertString raw = .ok value) : (dict field).ReadsBack raw value := by
  rw [convertString, convert] at h
  obtain ⟨table, htable, rfl⟩ := map_eq_ok h
  obtain ⟨bindings, hpairs, hnodup, -, hsame⟩ := readPairs_eq_ok_iff.1 htable
  have hperm : table.toList.Perm bindings := hsame ▸ Table.perm_ofList hnodup
  have hback : ∀ pair ∈ table.toList, IsPiece (pair.1 ++ ":" ++ pair.2.listed).toList ∧
      ReadsPair field.convertString (pair.1 ++ ":" ++ pair.2.listed).toList pair := by
    intro pair hpair
    obtain ⟨piece, hpiece, hreads⟩ := exists_of_forall₂_of_mem hpairs (hperm.mem_iff.1 hpair)
    exact ReadsPair.listed ih ((isRow_pieces raw).pieces piece hpiece) hreads
  have hlisted : (Value.table table.toList).listed =
      ", ".intercalate (table.toList.map fun pair => pair.1 ++ ":" ++ pair.2.listed) := by
    rw [Value.listed, Value.listedFields_eq_map]
  have hisRow := isRow_pairs fun pair hpair => (hback pair hpair).1
  have hlength : (table.toList.map fun pair => pair.1 ++ ":" ++ pair.2.listed).length =
      (pieces raw).length := by
    rw [List.length_map, hperm.length_eq, hpairs.length_eq]
  have hagain := readPairs_listed fun pair hpair => (hback pair hpair).2
  refine .of_row hlisted hisRow hlength ?_
  rw [convertString, convert, hlisted, pieces_intercalate hisRow]
  exact congrArg _ hagain

end Pairs

/-- Whatever a text was read as is read from its listing too. -/
theorem readsBack {kind : Kind} {raw : String} {value : Value}
    (h : kind.convertString raw = .ok value) : kind.ReadsBack raw value := by
  induction kind generalizing raw value with
  | string choices => exact readsBack_text (fun _ => by rw [convert]) h
  | multiString => exact readsBack_text (fun _ => by rw [convert]) h
  | boolean => exact readsBack_boolean h
  | integer min max => exact readsBack_integer h
  | float min max => exact readsBack_float h
  | address family => exact readsBack_address h
  | list item ih => exact readsBack_list (fun _ _ => ih) h
  | dict field ih => exact readsBack_dict (fun _ _ => ih) h

/-- Whatever a text was read as, the listing of the value is read as the value. -/
theorem listing_read_back (kind : Kind) (raw : String) (value : Value)
    (h : kind.convertString raw = .ok value) : kind.convertString value.listed = .ok value :=
  (readsBack h).again

/-- Names out of order, an empty row and a value that is written otherwise. -/
theorem listing_read_back_nested :
    let kind := dict (list (dict (float none none)))
    let value := Value.table [("a", .array []), ("b", .array [.table [("x", .float 1.5)]])]
    kind.convertString " b : x: 15e-1 , a:" = .ok value ∧ value.listed = "a:, b:x:1.5" ∧
      kind.convertString "a:, b:x:1.5" = .ok value := by
  intro kind value
  have hread : kind.convertString " b : x: 15e-1 , a:" = .ok value := rfl
  have hlisted : value.listed = "a:, b:x:1.5" := rfl
  exact ⟨hread, hlisted, hlisted ▸ listing_read_back kind " b : x: 15e-1 , a:" value hread⟩

end Kind
end LayeredConfig
