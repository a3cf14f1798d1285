import LayeredConfig.Proofs.Pieces
import Mathlib.Data.List.Induction
import Mathlib.Data.List.Nodup

/-!
# Tables in text

A text is read as a table one piece after the other. A piece is a pair with a
name that none before it has, or it is to blame for not being one (`Blamed`), and
the first piece that is to blame ends the reading.

So a text is read if all its pieces are pairs with different names. Then the
table has these pairs and no other, and none was put in the place of another.
-/

namespace LayeredConfig.Kind

variable {convert : String → Except ValueError Value} {names : List String} {piece : List Char}
  {rest front : List (List Char)} {table : Table Value} {binding : String × Value}
  {bindings : List (String × Value)} {e : ValueError}

section Run

theorem Blamed.congr {others : List String} (h : Blamed convert names piece e)
    (hsame : ∀ name, name ∈ others ↔ name ∈ names) : Blamed convert others piece e := by
  cases h with
  | no_colon hnone => exact .no_colon hnone
  | no_name hfirst hname => exact .no_name hfirst hname
  | repeated hfirst hname hknown => exact .repeated hfirst hname ((hsame _).2 hknown)
  | value hfirst hname hnew hvalue => exact .value hfirst hname (mt (hsame _).1 hnew) hvalue

theorem mem_keys_foldl_insert {name : String} :
    name ∈ (bindings.foldl (fun table b => table.insert b.1 b.2) table).keys ↔
      name ∈ bindings.map Prod.fst ∨ name ∈ table.keys := by
  induction bindings generalizing table with
  | nil => simp
  | cons binding others ih =>
    rw [List.foldl_cons, ih, ← Table.contains_iff_mem_keys, Table.contains_insert, Bool.or_eq_true,
      decide_eq_true_iff, Table.contains_iff_mem_keys, List.map_cons, List.mem_cons]
    tauto

theorem readPairs_append (hpairs : List.Forall₂ (ReadsPair convert) front bindings)
    (hnodup : (bindings.map Prod.fst).Nodup) (hnew : ∀ b ∈ bindings, b.1 ∉ table.keys)
    (rest : List (List Char)) :
    readPairs convert table (front ++ rest) =
      readPairs convert (bindings.foldl (fun table b => table.insert b.1 b.2) table) rest := by
  induction hpairs generalizing table with
  | nil => rfl
  | @cons piece binding front others hpair hpairs ih =>
    obtain ⟨hname, hnodup⟩ := List.nodup_cons.1 hnodup
    obtain ⟨hfirst, hothers⟩ := List.forall_mem_cons.1 hnew
    have hlater : ∀ b ∈ others, b.1 ∉ (table.insert binding.1 binding.2).keys := by
      intro b hb hmem
      rw [← Table.contains_iff_mem_keys, Table.contains_insert, Bool.or_eq_true,
        decide_eq_true_iff, Table.contains_iff_mem_keys] at hmem
      rcases hmem with heq | hmem
      · exact hname (heq ▸ List.mem_map_of_mem hb)
      · exact hothers b hb hmem
    rw [List.cons_append, readPairs_of_readsPair hpair hfirst, ih hnodup hlater]
    rfl

theorem readPairs_append_of_blamed (hpairs : List.Forall₂ (ReadsPair convert) front bindings)
    (hnodup : (bindings.map Prod.fst).Nodup)
    (hblamed : Blamed convert (bindings.map Prod.fst) piece e) (rest : List (List Char)) :
    readPairs convert Table.empty (front ++ piece :: rest) = .error e := by
  have hnew : ∀ b ∈ bindings, b.1 ∉ (Table.empty : Table Value).keys := fun _ _ => List.not_mem_nil
  rw [readPairs_append hpairs hnodup hnew]
  refine readPairs_of_blamed (hblamed.congr fun name => ?_)
  rw [mem_keys_foldl_insert]
  exact or_iff_left List.not_mem_nil

/-- All pieces are pairs with different names, or there is a first one that is not. -/
theorem pairs_or_blamed (convert : String → Except ValueError Value)
    (pieces : List (List Char)) :
    (∃ bindings, List.Forall₂ (ReadsPair convert) pieces bindings ∧
      (bindings.map Prod.fst).Nodup) ∨
    ∃ front piece rest bindings e, pieces = front ++ piece :: rest ∧
      List.Forall₂ (ReadsPair convert) front bindings ∧ (bindings.map Prod.fst).Nodup ∧
      Blamed convert (bindings.map Prod.fst) piece e := by
  induction pieces using List.reverseRecOn with
  | nil => exact .inl ⟨[], .nil, List.nodup_nil⟩
  | append_singleton pieces last ih =>
    obtain ⟨bindings, hpairs, hnodup⟩ | ⟨front, piece, rest, bindings, e, rfl, hblamed⟩ := ih
    · obtain ⟨binding, hpair, hnew⟩ | ⟨e, hblamed⟩ :=
        readsPair_or_blamed convert (bindings.map Prod.fst) last
      · refine .inl ⟨bindings ++ [binding], List.rel_append hpairs (.cons hpair .nil), ?_⟩
        rw [List.map_append, List.map_singleton, ← List.concat_eq_append, List.nodup_concat]
        exact ⟨hnew, hnodup⟩
      · exact .inr ⟨pieces, last, [], bindings, e, rfl, hpairs, hnodup, hblamed⟩
    · refine .inr ⟨front, piece, rest ++ [last], bindings, e, ?_, hblamed⟩
      rw [List.append_assoc, List.cons_append]

/-- Reading ends at the first piece that is to blame, with what that piece is to blame for. -/
theorem readPairs_eq_error_iff {pieces : List (List Char)} :
    readPairs convert Table.empty pieces = .error e ↔
      ∃ front piece rest bindings, pieces = front ++ piece :: rest ∧
        List.Forall₂ (ReadsPair convert) front bindings ∧ (bindings.map Prod.fst).Nodup ∧
        Blamed convert (bindings.map Prod.fst) piece e := by
  constructor
  · intro h
    obtain ⟨bindings, hpairs, hnodup⟩ | ⟨front, piece, rest, bindings, e', rfl, hpairs, hnodup,
      hblamed⟩ := pairs_or_blamed convert pieces
    · obtain ⟨table, hread⟩ : ∃ table, readPairs convert Table.empty pieces = .ok table :=
        ⟨_, readPairs_eq_ok_iff.2 ⟨bindings, hpairs, hnodup, fun _ _ => rfl, rfl⟩⟩
      cases h.symm.trans hread
    · cases h.symm.trans (readPairs_append_of_blamed hpairs hnodup hblamed rest)
      exact ⟨front, piece, rest, bindings, rfl, hpairs, hnodup, hblamed⟩
  · rintro ⟨front, piece, rest, bindings, rfl, hpairs, hnodup, hblamed⟩
    exact readPairs_append_of_blamed hpairs hnodup hblamed rest

end Run

theorem eq_ofList_of_perm {fields : List (String × Value)} (hperm : fields.Perm bindings)
    (hascending : Bindings.Ascending fields) : fields = (Table.ofList bindings).toList := by
  have hnodup : (bindings.map Prod.fst).Nodup :=
    (hperm.map Prod.fst).nodup_iff.1 hascending.nodup
  refine Bindings.ext_get? hascending (Table.ascending _) fun name => Option.ext fun value => ?_
  rw [Bindings.get?_eq_some_iff hascending, Bindings.get?_eq_some_iff (Table.ascending _),
    hperm.mem_iff, (Table.perm_ofList hnodup).mem_iff]

/-- The pieces of a text: what its commas separate, without the blanks at either end; none if it
has only blanks. -/
theorem pieces_eq (text : String) :
    pieces text = if text.toList.all Text.isBlank then []
      else (Text.cut ',' text.toList).map Text.trim := by
  split
  · next hblank => exact pieces_of_blank (Text.trim_eq_nil_iff.2 (List.all_eq_true.1 hblank))
  · next hvisible =>
    refine pieces_of_visible fun hnil => hvisible ?_
    exact List.all_eq_true.2 (Text.trim_eq_nil_iff.1 hnil)

/-- A text is read as a table exactly if its pieces are pairs with different names, and then the
table has these pairs and nothing else. Otherwise the first piece that is no pair with a new name
is to blame. -/
theorem read_pair_by_pair (field : Kind) (text : String) :
    (pieces text = if text.toList.all Text.isBlank then []
      else (Text.cut ',' text.toList).map Text.trim) ∧
    (∀ value, (dict field).convertString text = .ok value ↔
      ∃ bindings fields, List.Forall₂ (ReadsPair field.convertString) (pieces text) bindings ∧
        (bindings.map Prod.fst).Nodup ∧ fields.Perm bindings ∧ Bindings.Ascending fields ∧
        value = .table fields) ∧
    ∀ e, (dict field).convertString text = .error e ↔
      ∃ front piece rest bindings, pieces text = front ++ piece :: rest ∧
        List.Forall₂ (ReadsPair field.convertString) front bindings ∧
        (bindings.map Prod.fst).Nodup ∧
        Blamed field.convertString (bindings.map Prod.fst) piece e := by
  have hconvert : (dict field).convertString text =
      (fun table => .table table.toList) <$>
        readPairs field.convertString Table.empty (pieces text) := by
    rw [convertString, convert]
    rfl
  refine ⟨pieces_eq text, fun value => ?_, fun e => ?_⟩
  · rw [hconvert]
    constructor
    · intro h
      obtain ⟨table, htable, rfl⟩ := map_eq_ok h
      obtain ⟨bindings, hpairs, hnodup, -, rfl⟩ := readPairs_eq_ok_iff.1 htable
      exact ⟨bindings, _, hpairs, hnodup, Table.perm_ofList hnodup, Table.ascending _, rfl⟩
    · rintro ⟨bindings, fields, hpairs, hnodup, hperm, hascending, rfl⟩
      rw [eq_ofList_of_perm hperm hascending,
        readPairs_eq_ok_iff.2 ⟨bindings, hpairs, hnodup, fun _ _ => rfl, rfl⟩]
      rfl
  · rw [hconvert, map_eq_error_iff, readPairs_eq_error_iff]

/-- A comma at the end leaves an empty piece, which has no colon. -/
example : (dict text).convertString "b: x:y , a :," = .error (.invalid "dict" "") ∧
    (dict text).convertString "b: x:y , a :" =
      .ok (.table [("a", .string ""), ("b", .string "x:y")]) :=
  ⟨rfl, rfl⟩

end LayeredConfig.Kind
