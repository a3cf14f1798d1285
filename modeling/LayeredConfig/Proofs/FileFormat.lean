import LayeredConfig.Proofs.Written

/-!
# The file format

Files and well-formed sections stand for each other. The items of a table of
sections are placed under their headers, they are well formed when the table is,
and gathering them gives the table back; so what is written is read as the table
that it was written from. Whatever else a file says, the sections read from it
are well formed, so they can be written and read again.

A table is compared with the gathered items through its lookups. What the items
assign to one key under one header is a walk over two ascending lists, each of
which binds the name in question at most once (`Table.flatMap_at`).
-/

namespace LayeredConfig

theorem Bindings.flatMap_at {α β : Type} {bindings : List (String × α)}
    (h : Ascending bindings) (key : String) (f : α → List β) :
    (bindings.flatMap fun b => if b.1 = key then f b.2 else []) =
      ((get? key bindings).map f).getD [] := by
  induction bindings with
  | nil => rfl
  | cons hd tl ih =>
    obtain ⟨k, x⟩ := hd
    obtain ⟨hk, htl⟩ := List.pairwise_cons.1 h
    rw [List.flatMap_cons, ih htl, get?]
    by_cases heq : k = key
    · subst heq
      rw [get?_eq_none_of_lt hk, if_pos rfl, if_pos rfl]
      exact List.append_nil (f x)
    · rw [if_neg heq, if_neg (Ne.symm heq), List.nil_append]

theorem Table.flatMap_at {α β : Type} (table : Table α) (key : String) (f : α → List β) :
    (table.toList.flatMap fun b => if b.1 = key then f b.2 else []) =
      ((table.get? key).map f).getD [] :=
  Bindings.flatMap_at table.ascending key f

namespace Item

theorem placed_assignments_append {name : String} {assigned rest : List Item}
    (hassigned : ∀ item ∈ assigned, ∃ key value, item = .assignment name key value)
    (hrest : Placed (some name) rest) : Placed (some name) (assigned ++ rest) := by
  induction assigned with
  | nil => exact hrest
  | cons item more ih =>
    obtain ⟨⟨key, value, rfl⟩, hmore⟩ := List.forall_mem_cons.1 hassigned
    exact ⟨rfl, ih hmore⟩

end Item

namespace Sections

variable {sections : Sections}

theorem placed_items (sections : Sections) : Item.Placed none sections.items := by
  have hplaced : ∀ (bindings : List (String × Table (List String))) (opened : Option String),
      Item.Placed opened (bindings.flatMap fun binding => itemsOf binding.1 binding.2) := by
    intro bindings
    induction bindings with
    | nil => exact fun opened => trivial
    | cons binding rest ih =>
      intro opened
      refine Item.placed_assignments_append ?_ (ih (some binding.1))
      intro item hitem
      obtain ⟨⟨key, values⟩, -, hvalue⟩ := List.mem_flatMap.1 hitem
      obtain ⟨value, -, rfl⟩ := List.mem_map.1 hvalue
      exact ⟨key, value, rfl⟩
  exact hplaced sections.toList none

theorem mem_items {item : Item} :
    item ∈ sections.items ↔ ∃ name members, sections.get? name = some members ∧
      (item = .header name ∨ ∃ key values value, members.get? key = some values ∧
        value ∈ values ∧ item = .assignment name key value) := by
  simp only [items, itemsOf, List.mem_flatMap, List.mem_cons, List.mem_map, Prod.exists,
    Table.get?_eq_some_iff]
  constructor
  · rintro ⟨name, members, hmem, rfl | ⟨key, values, hvalues, value, hvalue, rfl⟩⟩
    · exact ⟨name, members, hmem, .inl rfl⟩
    · exact ⟨name, members, hmem, .inr ⟨key, values, value, hvalues, hvalue, rfl⟩⟩
  · rintro ⟨name, members, hmem, rfl | ⟨key, values, value, hvalues, hvalue, rfl⟩⟩
    · exact ⟨name, members, hmem, .inl rfl⟩
    · exact ⟨name, members, hmem, .inr ⟨key, values, hvalues, value, hvalue, rfl⟩⟩

theorem WellFormed.items (h : sections.WellFormed) : ∀ item ∈ sections.items, item.WellFormed := by
  intro item hitem
  obtain ⟨name, members, hget, rfl | ⟨key, values, value, hvalues, hvalue, rfl⟩⟩ :=
    mem_items.1 hitem
  · exact .header (h.name name members hget)
  · have hfind : sections.find? name key = some values := by
      rw [find?, hget]
      exact hvalues
    exact .assignment (h.name name members hget) (h.key name key values hfind)
      (h.value name key values hfind value hvalue)

theorem valuesUnder_items (sections : Sections) (name key : String) :
    valuesUnder (· = name) key sections.items = (sections.find? name key).getD [] := by
  have hvalues : ∀ (opened k : String) (values : List String),
      (values.map (Item.assignment opened k)).filterMap (Item.valueFor? (· = name) key) =
        if opened = name then if k = key then values else [] else [] := by
    intro opened k values
    rw [List.filterMap_map]
    show values.filterMap (fun value => if opened = name ∧ k = key then some value else none) = _
    by_cases hname : opened = name
    · by_cases hkey : k = key
      · simp [hname, hkey]
      · simp [hkey]
    · simp [hname]
  have hsection : ∀ (opened : String) (members : Table (List String)),
      (itemsOf opened members).filterMap (Item.valueFor? (· = name) key) =
        if opened = name then (members.get? key).getD [] else [] := by
    intro opened members
    have hheader : (itemsOf opened members).filterMap (Item.valueFor? (· = name) key) =
        members.toList.flatMap fun b =>
          if opened = name then if b.1 = key then b.2 else [] else [] := by
      rw [itemsOf, List.filterMap_cons_none rfl, List.filterMap_flatMap]
      simp only [hvalues]
    rw [hheader]
    split
    · rw [Table.flatMap_at members key fun values => values, Option.map_id']
    · exact List.flatMap_eq_nil_iff.2 fun b hb => rfl
  rw [valuesUnder, items, List.filterMap_flatMap]
  simp only [hsection]
  rw [Table.flatMap_at sections name fun members => (members.get? key).getD [], find?]
  cases sections.get? name with
  | none => rfl
  | some members => rfl

/-- Gathering the items of a table gives the table back if no key in it is without values. -/
theorem ofItems_items
    (h : ∀ name key values, sections.find? name key = some values → values ≠ []) :
    ofItems sections.items = sections := by
  have hfind : ∀ name key,
      (ofItems sections.items).find? name key = sections.find? name key := by
    intro name key
    rw [find?_ofItems, valuesUnder_items]
    cases hvalues : sections.find? name key with
    | none => rfl
    | some values => exact someValues_of_ne_nil (h name key values hvalues)
  -- Look-ups of keys miss the sections without keys.
  have hsome : ∀ name, ((ofItems sections.items).get? name).isSome = true ↔
      (sections.get? name).isSome = true := by
    intro name
    rw [isSome_get?_ofItems, Option.isSome_iff_exists]
    constructor
    · rintro ⟨item, hitem, rfl⟩
      obtain ⟨name, members, hget, rfl | ⟨key, values, value, -, -, rfl⟩⟩ := mem_items.1 hitem
      · exact ⟨members, hget⟩
      · exact ⟨members, hget⟩
    · rintro ⟨members, hget⟩
      exact ⟨.header name, mem_items.2 ⟨name, members, hget, .inl rfl⟩, rfl⟩
  refine Table.ext_get? fun name => ?_
  cases hget : sections.get? name with
  | none =>
    rw [← Option.not_isSome_iff_eq_none, hsome, hget]
    exact Bool.false_ne_true
  | some members =>
    obtain ⟨gathered, hgathered⟩ := Option.isSome_iff_exists.1 ((hsome name).2 (by rw [hget]; rfl))
    rw [hgathered]
    congr 1
    refine Table.ext_get? fun key => ?_
    have hkey := hfind name key
    rw [find?, find?, hgathered, hget] at hkey
    exact hkey

end Sections

namespace Source

theorem sections_of_read {path content : String} {source : Source}
    (h : read path content = .ok source) :
    ∃ items, readItems content = .ok items ∧ source.sections = Sections.ofItems items := by
  obtain ⟨items, hitems, rfl⟩ := exists_items_of_read h
  exact ⟨items, hitems, rfl⟩

/-- Well-formed sections are read back from what is written for them. -/
theorem exists_read_written {sections : Sections} (h : sections.WellFormed) (indent : Indent)
    (path : String) :
    ∃ source, read path (sections.written indent) = .ok source ∧ source.sections = sections := by
  refine ⟨ofItems path sections.items, ?_, Sections.ofItems_items h.nonempty⟩
  rw [read, Sections.written, readItems_lines indent h.items sections.placed_items]
  rfl

theorem wellFormed_sections {path content : String} {source : Source}
    (h : read path content = .ok source) : source.sections.WellFormed := by
  obtain ⟨items, hitems, hsections⟩ := sections_of_read h
  rw [hsections]
  exact Sections.wellFormed_ofItems (wellFormed_of_readItems hitems)

/-- Files hold exactly the well-formed tables of sections. Every such table is read from what is
written for it, whatever the indentation; and every file that is accepted at all has such a table,
which writing and reading again gives back. -/
theorem sections_represented :
    (∀ sections : Sections, sections.WellFormed → ∀ (indent : Indent) (path : String),
      ∃ source, read path (sections.written indent) = .ok source ∧
        source.sections = sections) ∧
    ∀ path content source, read path content = .ok source →
      source.sections.WellFormed ∧ ∀ (indent : Indent) (path' : String),
        ∃ source', read path' (source.sections.written indent) = .ok source' ∧
          source'.sections = source.sections := by
  refine ⟨fun sections h indent path => exists_read_written h indent path, ?_⟩
  intro path content source hread
  have hformed := wellFormed_sections hread
  exact ⟨hformed, fun indent path' => exists_read_written hformed indent path'⟩

/-- Prose with a colon in it continues a value, and does so again when it is written. -/
theorem sections_represented_prose :
    ∃ source, read "a.conf" "[Web]\nmotd: 'one '\n\tand more: text\n" = .ok source ∧
      source.sections.find? "Web" "motd" = some ["one \nand more: text"] ∧
      ∃ source', read "b.conf" (source.sections.written .space) = .ok source' ∧
        source'.sections = source.sections := by
  have hread : read "a.conf" "[Web]\nmotd: 'one '\n\tand more: text\n" =
      .ok (ofItems "a.conf"
        [.header "Web", .assignment "Web" "motd" "one \nand more: text"]) := rfl
  exact ⟨_, hread, rfl, (sections_represented.2 _ _ _ hread).2 .space "b.conf"⟩

end Source

end LayeredConfig
