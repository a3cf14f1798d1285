import LayeredConfig.Address
import LayeredConfig.Proofs.Trimming

/-!
# The canonical text of an address

An address is read back from its canonical text, whichever family it is of. For
version 4 this is the round trip of four octets. For version 6 the groups are
written in hexadecimal, and what has to be seen is that the gap is found where
it was put: groups are never empty, so two colons stand together nowhere else
(`cutGap_groupsText_append`). The reader then fills the gap with as many zeros
as were taken out. Which run of zeros is closed does not matter for that, only
that it is one, and that at most seven groups are left.
-/

namespace LayeredConfig

section Digits

theorem exists_of_mem_toDigits {b n : Nat} (hb : 1 < b) {c : Char} (h : c ∈ Nat.toDigits b n) :
    ∃ d < b, c = Nat.digitChar d := by
  induction n using Nat.strongRecOn with
  | ind n ih =>
    rw [Nat.toDigits_eq_if hb] at h
    split at h
    · next hlt => exact ⟨n, hlt, List.mem_singleton.1 h⟩
    · next hge =>
      rcases List.mem_append.1 h with hfront | hlast
      · exact ih (n / b) (Nat.div_lt_self (by omega) hb) hfront
      · exact ⟨n % b, Nat.mod_lt n (by omega), List.mem_singleton.1 hlast⟩

theorem plain_digitChar : ∀ d < 16,
    Text.isBlank (Nat.digitChar d) = false ∧ Nat.digitChar d ≠ ',' := by
  decide

theorem plain_toDigits {b n : Nat} (hb : 1 < b) (hle : b ≤ 16) :
    Text.Plain (Nat.toDigits b n) := by
  intro c hc
  obtain ⟨d, hd, rfl⟩ := exists_of_mem_toDigits hb hc
  exact plain_digitChar d (Nat.lt_of_lt_of_le hd hle)

theorem eq_zero_of_head_toDigits {n : Nat} (h : (Nat.toDigits 10 n).head? = some '0') : n = 0 := by
  induction n using Nat.strongRecOn with
  | ind n ih =>
    rw [Nat.toDigits_eq_if (by decide)] at h
    split at h
    · next hlt =>
      have hdigit : ∀ d < 10, Nat.digitChar d = '0' → d = 0 := by decide
      exact hdigit n hlt (Option.some.inj h)
    · next hge =>
      have hsome : (Nat.toDigits 10 (n / 10)).head? ≠ none := by
        rw [ne_eq, List.head?_eq_none_iff]
        exact Nat.toDigits_ne_nil
      rw [List.head?_append, Option.or_of_isSome (Option.isSome_iff_ne_none.2 hsome)] at h
      have hfront := ih (n / 10) (by omega) h
      omega

end Digits

namespace AddressV4

theorem octet?_toDigits (n : UInt8) : octet? (Nat.toDigits 10 n.toNat) = some n := by
  have hlt : n.toNat < 256 := n.toNat_lt
  have hlength : (Nat.toDigits 10 n.toNat).length ≤ 3 :=
    (Nat.length_toDigits_le_iff (by decide) (by decide)).2 (by omega)
  have hhead : (Nat.toDigits 10 n.toNat).head? = some '0' →
      (Nat.toDigits 10 n.toNat).length = 1 := by
    intro h
    rw [eq_zero_of_head_toDigits h]
    rfl
  rw [octet?, if_pos ⟨hlength, hhead⟩, Decimal.natural?_toDigits, Option.bind_some, if_pos hlt,
    UInt8.ofNat_toNat]

theorem dot_not_mem_toDigits (n : Nat) : '.' ∉ Nat.toDigits 10 n := by
  intro h
  have hdigit := Nat.isDigit_of_mem_toDigits (by decide) (by decide) h
  exact absurd hdigit (by decide)

theorem cut_text (address : AddressV4) :
    Text.cut '.' address.text = [Nat.toDigits 10 address.first.toNat,
      Nat.toDigits 10 address.second.toNat, Nat.toDigits 10 address.third.toNat,
      Nat.toDigits 10 address.fourth.toNat] := by
  simp only [text, List.append_assoc, List.cons_append]
  rw [Text.cut_append (dot_not_mem_toDigits _), Text.cut_append (dot_not_mem_toDigits _),
    Text.cut_append (dot_not_mem_toDigits _), Text.cut_of_not_mem (dot_not_mem_toDigits _)]

theorem read?_text (address : AddressV4) : read? address.text = some address := by
  simp only [read?, cut_text, octet?_toDigits]
  rfl

theorem read?_eq_none_of_cut {text piece : List Char} {rest : List (List Char)}
    (hcut : Text.cut '.' text = piece :: rest) (hlength : 3 < piece.length) :
    read? text = none := by
  have hoctet : octet? piece = none := if_neg fun h => by omega
  rw [read?, hcut]
  split
  · next a b c d heq =>
    cases heq
    rw [hoctet]
    rfl
  · rfl

theorem read?_eq_none_of_not_mem {text : List Char} (h : '.' ∉ text) : read? text = none := by
  rw [read?, Text.cut_of_not_mem h]

theorem groups_ofGroups (high low : UInt16) : (ofGroups high low).groups = [high, low] := by
  have hjoin : ∀ n : UInt16, (n / 256).toUInt8.toUInt16 * 256 + n.toUInt8.toUInt16 = n := by
    intro n
    rw [← UInt16.toNat_inj]
    have hlt := n.toNat_lt
    simp
    omega
  rw [groups, ofGroups, hjoin, hjoin]

theorem mem_text {address : AddressV4} {c : Char} (h : c ∈ address.text) :
    (∃ d < 10, c = Nat.digitChar d) ∨ c = '.' := by
  have hdigits : ∀ n : UInt8, c ∈ Nat.toDigits 10 n.toNat → ∃ d < 10, c = Nat.digitChar d :=
    fun n hn => exists_of_mem_toDigits (by decide) hn
  simp only [text, List.append_assoc, List.cons_append, List.mem_append, List.mem_cons] at h
  rcases h with h | h | h | h | h | h | h
  · exact .inl (hdigits _ h)
  · exact .inr h
  · exact .inl (hdigits _ h)
  · exact .inr h
  · exact .inl (hdigits _ h)
  · exact .inr h
  · exact .inl (hdigits _ h)

end AddressV4

namespace AddressV6

section Groups

theorem hexDigit?_digitChar : ∀ d < 16, hexDigit? (Nat.digitChar d) = some d := by
  decide

theorem exists_mapM_hexDigit? (n : Nat) :
    ∃ digits, (Nat.toDigits 16 n).mapM hexDigit? = some digits ∧
      digits.foldl (fun m d => m * 16 + d) 0 = n := by
  induction n using Nat.strongRecOn with
  | ind n ih =>
    rw [Nat.toDigits_eq_if (by decide)]
    split
    · next hlt =>
      refine ⟨[n], ?_, by simp⟩
      rw [List.mapM_cons, hexDigit?_digitChar n hlt]
      rfl
    · next hge =>
      obtain ⟨digits, hdigits, hvalue⟩ := ih (n / 16) (by omega)
      refine ⟨digits ++ [n % 16], ?_, ?_⟩
      · rw [List.mapM_append, hdigits, List.mapM_cons,
          hexDigit?_digitChar (n % 16) (Nat.mod_lt n (by decide))]
        rfl
      · rw [List.foldl_append, hvalue, List.foldl_cons, List.foldl_nil]
        omega

theorem group?_hexadecimal (group : UInt16) :
    group? (Text.hexadecimal group.toNat) = some group := by
  have hlt : group.toNat < 65536 := group.toNat_lt
  have hlength : (Nat.toDigits 16 group.toNat).length ≤ 4 :=
    (Nat.length_toDigits_le_iff (by decide) (by decide)).2 (by omega)
  obtain ⟨digits, hdigits, hvalue⟩ := exists_mapM_hexDigit? group.toNat
  rw [Text.hexadecimal, group?, if_pos ⟨Nat.toDigits_ne_nil, hlength⟩, hdigits, Option.map_some,
    hvalue, UInt16.ofNat_toNat]

theorem colon_not_mem_hexadecimal (n : Nat) : ':' ∉ Text.hexadecimal n := by
  intro h
  obtain ⟨d, hd, heq⟩ := exists_of_mem_toDigits (by decide) h
  have hother : ∀ d < 16, ':' ≠ Nat.digitChar d := by decide
  exact hother d hd heq

theorem mapM_group? (groups : List UInt16) :
    (groups.map fun group => Text.hexadecimal group.toNat).mapM group? = some groups := by
  induction groups with
  | nil => rfl
  | cons group rest ih =>
    rw [List.map_cons, List.mapM_cons, group?_hexadecimal, ih]
    rfl

theorem closingGroups?_map (groups : List UInt16) :
    closingGroups? (groups.map fun group => Text.hexadecimal group.toNat) = some groups := by
  induction groups with
  | nil => rfl
  | cons group rest ih =>
    cases rest with
    | nil => simp only [List.map_cons, List.map_nil, closingGroups?, group?_hexadecimal]
    | cons next more =>
      simp only [List.map_cons] at ih ⊢
      rw [closingGroups?, group?_hexadecimal, ih]
      · rfl
      · exact List.cons_ne_nil _ _

end Groups

section Gap

theorem cutGap_cons {c : Char} (h : c ≠ ':') (rest : List Char) :
    cutGap (c :: rest) = (cutGap rest).map fun halves => (c :: halves.1, halves.2) := by
  cases rest with
  | nil => rfl
  | cons d more => rw [cutGap, if_neg fun hboth => h hboth.1]

theorem cutGap_append {piece : List Char} (h : ':' ∉ piece) (rest : List Char) :
    cutGap (piece ++ rest) =
      (cutGap rest).map fun halves => (piece ++ halves.1, halves.2) := by
  induction piece with
  | nil => simp
  | cons c more ih =>
    have hc : c ≠ ':' := fun heq => h (heq ▸ List.mem_cons_self)
    have hmore : ':' ∉ more := fun hmem => h (List.mem_cons_of_mem c hmem)
    rw [List.cons_append, cutGap_cons hc, ih hmore, Option.map_map]
    rfl

theorem cutGap_colon {rest : List Char} (h : rest.head? ≠ some ':') :
    cutGap (':' :: rest) = (cutGap rest).map fun halves => (':' :: halves.1, halves.2) := by
  cases rest with
  | nil => rfl
  | cons d more => rw [cutGap, if_neg fun hboth => h (congrArg some hboth.2)]

theorem groupsText_cons (group : UInt16) (rest : List UInt16) (h : rest ≠ []) :
    groupsText (group :: rest) = Text.hexadecimal group.toNat ++ ':' :: groupsText rest := by
  cases rest with
  | nil => exact absurd rfl h
  | cons next more =>
    rw [groupsText, List.map_cons, List.map_cons, List.intercalate_cons_cons, List.append_assoc]
    rfl

theorem exists_groupsText_cons (group : UInt16) (rest : List UInt16) :
    ∃ c more, groupsText (group :: rest) = c :: more ∧ c ≠ ':' := by
  cases hdigits : Text.hexadecimal group.toNat with
  | nil => exact absurd hdigits Nat.toDigits_ne_nil
  | cons c digits =>
    have hc : c ≠ ':' := fun heq =>
      colon_not_mem_hexadecimal group.toNat (hdigits ▸ heq ▸ List.mem_cons_self)
    by_cases hrest : rest = []
    · subst hrest
      refine ⟨c, digits, ?_, hc⟩
      rw [groupsText, List.map_singleton, List.intercalate_singleton, hdigits]
    · refine ⟨c, digits ++ ':' :: groupsText rest, ?_, hc⟩
      rw [groupsText_cons group rest hrest, hdigits, List.cons_append]

/-- There is no gap in a row of groups, whatever stands after it. -/
theorem cutGap_groupsText_append (groups : List UInt16) (rest : List Char) :
    cutGap (groupsText groups ++ rest) =
      (cutGap rest).map fun halves => (groupsText groups ++ halves.1, halves.2) := by
  induction groups with
  | nil => simp [groupsText]
  | cons group more ih =>
    cases more with
    | nil =>
      have hsingle : groupsText [group] = Text.hexadecimal group.toNat :=
        List.intercalate_singleton
      rw [hsingle, cutGap_append (colon_not_mem_hexadecimal _)]
    | cons next others =>
      have hhead : (groupsText (next :: others) ++ rest).head? ≠ some ':' := by
        obtain ⟨c, tail, htext, hc⟩ := exists_groupsText_cons next others
        rw [htext]
        exact fun heq => hc (Option.some.inj heq)
      rw [groupsText_cons group (next :: others) (List.cons_ne_nil _ _), List.append_assoc,
        List.cons_append, cutGap_append (colon_not_mem_hexadecimal _),
        cutGap_colon hhead, ih, Option.map_map, Option.map_map]
      simp [Function.comp_def]

theorem cut_groupsText {groups : List UInt16} (h : groups ≠ []) :
    Text.cut ':' (groupsText groups) =
      groups.map fun group => Text.hexadecimal group.toNat := by
  cases groups with
  | nil => exact absurd rfl h
  | cons group rest =>
    refine Text.cut_intercalate (colon_not_mem_hexadecimal _) ?_
    intro piece hpiece
    obtain ⟨other, -, rfl⟩ := List.mem_map.1 hpiece
    exact colon_not_mem_hexadecimal _

theorem pieces_groupsText (groups : List UInt16) :
    pieces (groupsText groups) = groups.map fun group => Text.hexadecimal group.toNat := by
  cases groups with
  | nil => rfl
  | cons group rest =>
    obtain ⟨c, more, htext, -⟩ := exists_groupsText_cons group rest
    rw [pieces, if_neg (by simp [htext]), cut_groupsText (List.cons_ne_nil _ _)]

end Gap

section ReadBack

/-- The run of zeros that is closed stands between the groups before and after it. -/
theorem take_append_zeros (groups : List UInt16) (start : Nat) :
    groups.take start ++ List.replicate (zerosFrom groups start) 0 ++
      groups.drop (start + zerosFrom groups start) = groups := by
  have hzeros : (groups.drop start).takeWhile (· = 0) =
      List.replicate (zerosFrom groups start) 0 := by
    rw [zerosFrom, List.eq_replicate_iff]
    refine ⟨rfl, fun group hgroup => ?_⟩
    simpa using List.all_eq_true.1 List.all_takeWhile group hgroup
  have hrest : groups.drop (start + zerosFrom groups start) =
      (groups.drop start).dropWhile (· = 0) := by
    calc groups.drop (start + zerosFrom groups start)
        = (groups.drop start).drop (zerosFrom groups start) := List.drop_drop.symm
      _ = ((groups.drop start).takeWhile (· = 0) ++ (groups.drop start).dropWhile (· = 0)).drop
            ((groups.drop start).takeWhile (· = 0)).length := by
        rw [List.takeWhile_append_dropWhile, zerosFrom]
      _ = (groups.drop start).dropWhile (· = 0) := List.drop_left
  rw [hrest, ← hzeros, List.append_assoc, List.takeWhile_append_dropWhile,
    List.take_append_drop]

/-- The forms that the text of an address can have. -/
inductive Written (address : AddressV6) : List Char → Prop
  /-- The address embeds one of version 4. -/
  | mapped {high low : UInt16} (hgroups : address.groups = [0, 0, 0, 0, 0, 0xffff, high, low]) :
      Written address ("::ffff:".toList ++ (AddressV4.ofGroups high low).text)
  /-- A run of zeros is closed into a gap. -/
  | gap {before after : List UInt16} {length : Nat} (hlength : 1 < length)
      (hgroups : before ++ List.replicate length 0 ++ after = address.groups) :
      Written address (groupsText before ++ "::".toList ++ groupsText after)
  | full : Written address (groupsText address.groups)

theorem written_text (address : AddressV6) : address.Written address.text := by
  rw [text]
  split
  · next high low hgroups => exact .mapped hgroups
  · simp only
    split
    · next hlong => exact .gap hlong (take_append_zeros address.groups _)
    · exact .full

theorem ofGroups?_groups (address : AddressV6) : ofGroups? address.groups = some address :=
  dif_pos address.length_groups

variable {groups : List UInt16}

theorem read?_groupsText (hlength : groups.length = 8) :
    read? (groupsText groups) = ofGroups? groups := by
  have hne : groups ≠ [] := List.ne_nil_of_length_pos (by omega)
  have hgap : cutGap (groupsText groups) = none := by
    have happend := cutGap_groupsText_append groups []
    rw [List.append_nil] at happend
    exact happend
  rw [read?, hgap]
  simp only [cut_groupsText hne, closingGroups?_map, Option.bind_some]

/-- A gap is filled with the zeros that it was made from. -/
theorem read?_gap {before after : List UInt16} {length : Nat} (hlength : 0 < length)
    (hgroups : before ++ List.replicate length 0 ++ after = groups)
    (height : groups.length = 8) :
    read? (groupsText before ++ "::".toList ++ groupsText after) = ofGroups? groups := by
  have hgap : cutGap (groupsText before ++ "::".toList ++ groupsText after) =
      some (groupsText before, groupsText after) := by
    rw [List.append_assoc, cutGap_groupsText_append]
    show Option.map _ (some ([], groupsText after)) = _
    rw [Option.map_some, List.append_nil]
  have hsum : before.length + length + after.length = 8 := by
    rw [← height, ← hgroups, List.length_append, List.length_append, List.length_replicate]
  have hzeros : 8 - (before.length + after.length) = length := by omega
  rw [read?, hgap]
  simp only [pieces_groupsText, mapM_group?, closingGroups?_map]
  show (if before.length + after.length ≤ 7 then _ else none) = _
  rw [if_pos (by omega), hzeros, hgroups]

theorem read?_mapped (high low : UInt16) :
    read? ("::ffff:".toList ++ (AddressV4.ofGroups high low).text) =
      ofGroups? [0, 0, 0, 0, 0, 0xffff, high, low] := by
  have hcolon : ':' ∉ (AddressV4.ofGroups high low).text := by
    intro h
    have hother : ∀ d < 10, ':' ≠ Nat.digitChar d := by decide
    rcases AddressV4.mem_text h with ⟨d, hd, heq⟩ | heq
    · exact hother d hd heq
    · exact absurd heq (by decide)
  have hlong : group? (AddressV4.ofGroups high low).text = none := by
    refine if_neg fun h => ?_
    have hdigits : ∀ n, 0 < (Nat.toDigits 10 n).length := fun n => Nat.length_toDigits_pos
    have hfirst := hdigits (AddressV4.ofGroups high low).first.toNat
    have hsecond := hdigits (AddressV4.ofGroups high low).second.toNat
    have hlength := h.2
    simp only [AddressV4.text, List.length_append, List.length_cons] at hlength
    omega
  have hpieces : pieces ("ffff:".toList ++ (AddressV4.ofGroups high low).text) =
      ["ffff".toList, (AddressV4.ofGroups high low).text] := by
    have hcut : Text.cut ':' ("ffff".toList ++ ':' :: (AddressV4.ofGroups high low).text) =
        "ffff".toList :: Text.cut ':' (AddressV4.ofGroups high low).text :=
      Text.cut_append (by decide) _
    rw [Text.cut_of_not_mem hcolon] at hcut
    exact hcut
  have hgap : cutGap ("::ffff:".toList ++ (AddressV4.ofGroups high low).text) =
      some ([], "ffff:".toList ++ (AddressV4.ofGroups high low).text) := rfl
  have hclosing : closingGroups? ["ffff".toList, (AddressV4.ofGroups high low).text] =
      some [0xffff, high, low] := by
    have hffff : group? "ffff".toList = some 0xffff := by decide
    simp only [closingGroups?, hffff, hlong, AddressV4.read?_text, Option.map_some,
      AddressV4.groups_ofGroups]
    rfl
  rw [read?, hgap]
  simp only [hpieces, hclosing]
  rfl

theorem read?_text (address : AddressV6) : read? address.text = some address := by
  have hlength := address.length_groups
  have hwritten := written_text address
  rw [← ofGroups?_groups]
  generalize address.text = text at hwritten ⊢
  cases hwritten with
  | mapped hgroups => rw [read?_mapped, hgroups]
  | gap hlong hgroups => exact read?_gap (by omega) hgroups hlength
  | full => exact read?_groupsText hlength

end ReadBack

theorem mem_groupsText {groups : List UInt16} {c : Char} (h : c ∈ groupsText groups) :
    (∃ d < 16, c = Nat.digitChar d) ∨ c = ':' := by
  induction groups with
  | nil => cases h
  | cons group rest ih =>
    have hdigits : c ∈ Text.hexadecimal group.toNat → ∃ d < 16, c = Nat.digitChar d :=
      fun hmem => exists_of_mem_toDigits (by decide) hmem
    by_cases hrest : rest = []
    · subst hrest
      rw [groupsText, List.map_singleton, List.intercalate_singleton] at h
      exact .inl (hdigits h)
    · rw [groupsText_cons group rest hrest, List.mem_append, List.mem_cons] at h
      rcases h with h | h | h
      · exact .inl (hdigits h)
      · exact .inr h
      · exact ih h

theorem mem_text {address : AddressV6} {c : Char} (h : c ∈ address.text) :
    (∃ d < 16, c = Nat.digitChar d) ∨ c = ':' ∨ c = '.' := by
  have hgroups : ∀ {groups : List UInt16}, c ∈ groupsText groups →
      (∃ d < 16, c = Nat.digitChar d) ∨ c = ':' ∨ c = '.' :=
    fun hmem => (mem_groupsText hmem).imp_right .inl
  have hwritten := written_text address
  generalize address.text = text at h hwritten
  cases hwritten with
  | mapped _ =>
    rcases List.mem_append.1 h with hmark | hmapped
    · have hall : ∀ c ∈ "::ffff:".toList, c = Nat.digitChar 15 ∨ c = ':' := by simp
      rcases hall c hmark with hdigit | hcolon
      · exact .inl ⟨15, by decide, hdigit⟩
      · exact .inr (.inl hcolon)
    · rcases AddressV4.mem_text hmapped with ⟨d, hd, heq⟩ | hdot
      · exact .inl ⟨d, by omega, heq⟩
      · exact .inr (.inr hdot)
  | gap _ _ =>
    rcases List.mem_append.1 h with hfront | hafter
    · rcases List.mem_append.1 hfront with hbefore | hgap
      · exact hgroups hbefore
      · have hall : ∀ c ∈ "::".toList, c = ':' := by simp
        exact .inr (.inl (hall c hgap))
    · exact hgroups hafter
  | full => exact hgroups h

/-- A text of version 6 is no text of version 4: it has no dots, or more than an octet before the
first of them. -/
theorem readV4?_text (address : AddressV6) : AddressV4.read? address.text = none := by
  have hdigits : ∀ d < 16, '.' ≠ Nat.digitChar d := by decide
  have hgroups : ∀ groups : List UInt16, '.' ∉ groupsText groups := by
    intro groups hmem
    rcases mem_groupsText hmem with ⟨d, hd, heq⟩ | hcolon
    · exact hdigits d hd heq
    · exact absurd hcolon (by decide)
  have hwritten := written_text address
  generalize address.text = text at hwritten ⊢
  cases hwritten with
  -- Only an embedded address has dots, behind more than an octet can be.
  | @mapped high low _ =>
    have hpiece : '.' ∉ "::ffff:".toList ++
        Nat.toDigits 10 (AddressV4.ofGroups high low).first.toNat := by
      rw [List.mem_append]
      rintro (hmark | hoctet)
      · exact absurd hmark (by decide)
      · exact AddressV4.dot_not_mem_toDigits _ hoctet
    simp only [AddressV4.text, List.append_assoc, List.cons_append]
    rw [← List.append_assoc]
    refine AddressV4.read?_eq_none_of_cut (Text.cut_append hpiece _) ?_
    rw [List.length_append]
    exact Nat.lt_add_right _ (by decide)
  | gap _ _ =>
    refine AddressV4.read?_eq_none_of_not_mem ?_
    rw [List.mem_append, List.mem_append]
    rintro ((hbefore | hgap) | hafter)
    · exact hgroups _ hbefore
    · exact absurd hgap (by decide)
    · exact hgroups _ hafter
  | full => exact AddressV4.read?_eq_none_of_not_mem (hgroups address.groups)

end AddressV6

namespace Address

theorem mem_text {address : Address} {c : Char} (h : c ∈ address.text) :
    (∃ d < 16, c = Nat.digitChar d) ∨ c = ':' ∨ c = '.' := by
  cases address with
  | v4 a =>
    rcases AddressV4.mem_text h with ⟨d, hd, heq⟩ | hdot
    · exact .inl ⟨d, by omega, heq⟩
    · exact .inr (.inr hdot)
  | v6 a => exact AddressV6.mem_text h

theorem plain_text (address : Address) : Text.Plain address.text := by
  intro c hc
  rcases mem_text hc with ⟨d, hd, rfl⟩ | rfl | rfl
  · exact plain_digitChar d hd
  · decide
  · decide

/-- An address is read back from its canonical text. -/
theorem read?_text (address : Address) : read? address.text = some address := by
  cases address with
  | v4 a => simp only [read?, text, AddressV4.read?_text]
  | v6 a => simp only [read?, text, AddressV6.readV4?_text, AddressV6.read?_text, Option.map_some]

end Address

end LayeredConfig
