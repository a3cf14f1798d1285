import LayeredConfig.Proofs.SectionName
import LayeredConfig.Source

/-!
# What a file assigns

A file assigns values to keys under headers, in the order of its items. The
sections of a source are that list of assignments arranged as a table of tables:
at a name and a key they hold exactly the values assigned there, in file order,
and a key without assignments is not there at all. Under normalized names the
same holds of all headers that stand for one section.
-/

namespace LayeredConfig

/-- The header that an item is, or stands under. -/
def Item.name : Item → String
  | header name => name
  | assignment name _ _ => name

/-- The value that an item assigns to a key under a header with a property. -/
def Item.valueFor? (opens : String → Prop) [DecidablePred opens] (key : String) :
    Item → Option String
  | header _ => none
  | assignment name k value => if opens name ∧ k = key then some value else none

/-- The values that items assign to a key under the headers with a property, in file order. -/
def valuesUnder (opens : String → Prop) [DecidablePred opens] (key : String)
    (items : List Item) : List String :=
  items.filterMap (Item.valueFor? opens key)

@[simp] theorem valuesUnder_nil (opens : String → Prop) [DecidablePred opens] (key : String) :
    valuesUnder opens key [] = [] := rfl

theorem valuesUnder_header (opens : String → Prop) [DecidablePred opens] (key name : String)
    (rest : List Item) :
    valuesUnder opens key (.header name :: rest) = valuesUnder opens key rest := rfl

theorem valuesUnder_assignment (opens : String → Prop) [DecidablePred opens]
    (key name k value : String) (rest : List Item) :
    valuesUnder opens key (.assignment name k value :: rest) =
      if opens name ∧ k = key then value :: valuesUnder opens key rest
      else valuesUnder opens key rest := by
  rw [valuesUnder, List.filterMap_cons, Item.valueFor?]
  split
  · next hnone =>
    rw [if_neg fun h => nomatch (if_pos h).symm.trans hnone]
    rfl
  · next value' hsome =>
    obtain ⟨hplace, hvalue⟩ := Option.ite_none_right_eq_some.1 hsome
    cases hvalue
    rw [if_pos hplace]
    rfl

theorem valuesUnder_rename (f : String → String) (opens : String → Prop)
    [DecidablePred opens] (key : String) (items : List Item) :
    valuesUnder opens key (items.map (Item.rename f)) =
      valuesUnder (fun name => opens (f name)) key items := by
  rw [valuesUnder, valuesUnder, List.filterMap_map]
  congr 1
  funext item
  cases item with
  | header name => rfl
  | assignment name k value => rfl

theorem valuesUnder_append (opens : String → Prop) [DecidablePred opens] (key : String)
    (items more : List Item) :
    valuesUnder opens key (items ++ more) =
      valuesUnder opens key items ++ valuesUnder opens key more :=
  List.filterMap_append

theorem valuesUnder_congr {opens opens' : String → Prop} [DecidablePred opens]
    [DecidablePred opens'] (h : ∀ name, opens name ↔ opens' name) (key : String)
    (items : List Item) : valuesUnder opens key items = valuesUnder opens' key items := by
  rw [valuesUnder, valuesUnder]
  congr 1
  funext item
  cases item with
  | header name => rfl
  | assignment name k value => simp only [Item.valueFor?, h]

/-- A list of values, if there are any. -/
def someValues (values : List String) : Option (List String) :=
  if values = [] then none else some values

@[simp] theorem someValues_nil : someValues [] = none := rfl

theorem someValues_of_ne_nil {values : List String} (h : values ≠ []) :
    someValues values = some values :=
  if_neg h

namespace Sections

/-- The values of a key, if the key is there. -/
def find? (sections : Sections) (name key : String) : Option (List String) :=
  (sections.get? name).bind fun members => members.get? key

theorem get?_members (sections : Sections) (name key : String) :
    (sections.members name).get? key = sections.find? name key := by
  rw [members, find?]
  cases sections.get? name with
  | none => rfl
  | some members => rfl

theorem valuesOf_eq (sections : Sections) (name key : String) :
    sections.valuesOf name key = (sections.find? name key).getD [] := by
  rw [valuesOf, get?_members]

theorem find?_record_header (sections : Sections) (opened name key : String) :
    (sections.record (.header opened)).find? name key = sections.find? name key := by
  rw [record, find?, Table.get?_insert]
  split
  · next hname =>
    subst hname
    exact get?_members sections name key
  · rfl

theorem find?_record_assignment (sections : Sections) (opened k value name key : String) :
    (sections.record (.assignment opened k value)).find? name key =
      if opened = name ∧ k = key then
        some ((sections.find? name key).getD [] ++ [value])
      else sections.find? name key := by
  rw [record, find?, Table.get?_insert]
  by_cases hname : name = opened
  · subst hname
    rw [if_pos rfl, Option.bind_some, Table.get?_insert, valuesOf_eq, get?_members]
    by_cases hkey : key = k
    · simp [hkey]
    · simp [hkey, Ne.symm hkey]
  · rw [if_neg hname, if_neg fun h => hname h.1.symm]
    rfl

theorem find?_foldl_record (sections : Sections) (items : List Item) (name key : String) :
    Sections.find? (items.foldl record sections) name key =
      if valuesUnder (· = name) key items = [] then sections.find? name key
      else some ((sections.find? name key).getD [] ++ valuesUnder (· = name) key items) := by
  induction items generalizing sections with
  | nil => rfl
  | cons item rest ih =>
    rw [List.foldl_cons, ih]
    cases item with
    | header opened => rw [find?_record_header, valuesUnder_header]
    | assignment opened k value =>
      rw [find?_record_assignment, valuesUnder_assignment]
      by_cases hplace : opened = name ∧ k = key
      · simp [hplace]
      · rw [if_neg hplace, if_neg hplace]

/-- The sections of a file hold exactly what the file assigns. -/
theorem find?_ofItems (items : List Item) (name key : String) :
    (ofItems items).find? name key = someValues (valuesUnder (· = name) key items) := by
  rw [ofItems, find?_foldl_record, someValues]
  rfl

theorem isSome_get?_record (sections : Sections) (item : Item) (name : String) :
    ((sections.record item).get? name).isSome = true ↔
      item.name = name ∨ (sections.get? name).isSome = true := by
  cases item with
  | header opened =>
    rw [record, Table.get?_insert, Item.name]
    by_cases hname : name = opened
    · simp [hname]
    · simp [hname, Ne.symm hname]
  | assignment opened key value =>
    rw [record, Table.get?_insert, Item.name]
    by_cases hname : name = opened
    · simp [hname]
    · simp [hname, Ne.symm hname]

theorem isSome_get?_foldl_record (sections : Sections) (items : List Item) (name : String) :
    (Table.get? (items.foldl record sections) name).isSome = true ↔
      (∃ item ∈ items, item.name = name) ∨ (sections.get? name).isSome = true := by
  induction items generalizing sections with
  | nil => simp
  | cons item rest ih =>
    rw [List.foldl_cons, ih, isSome_get?_record]
    simp only [List.mem_cons, exists_eq_or_imp]
    constructor
    · rintro (hrest | hitem | hold)
      · exact .inl (.inr hrest)
      · exact .inl (.inl hitem)
      · exact .inr hold
    · rintro ((hitem | hrest) | hold)
      · exact .inr (.inl hitem)
      · exact .inl hrest
      · exact .inr (.inr hold)

theorem isSome_get?_ofItems (items : List Item) (name : String) :
    ((ofItems items).get? name).isSome = true ↔ ∃ item ∈ items, item.name = name := by
  rw [ofItems, isSome_get?_foldl_record]
  simp

theorem valuesOf_ofItems (items : List Item) (name key : String) :
    (ofItems items).valuesOf name key = valuesUnder (· = name) key items := by
  rw [valuesOf_eq, find?_ofItems, someValues]
  split
  · next hnil => exact hnil.symm
  · rfl

theorem isSome_find?_ofItems (items : List Item) (name key : String) :
    ((ofItems items).find? name key).isSome = true ↔ (ofItems items).valuesOf name key ≠ [] := by
  rw [valuesOf_ofItems, find?_ofItems, someValues]
  split
  · next hnil => simp [hnil]
  · next hsome => simp [hsome]

theorem mem_keys_ofItems {items : List Item} {name : String} :
    name ∈ Table.keys (ofItems items) ↔ ∃ item ∈ items, item.name = name := by
  rw [← Table.contains_iff_mem_keys]
  exact isSome_get?_ofItems items name

end Sections

namespace Source

/-- A file that is read has items, and the source is gathered from them. -/
theorem exists_items_of_read {path content : String} {source : Source}
    (h : read path content = .ok source) :
    ∃ items, readItems content = .ok items ∧ source = ofItems path items := by
  rw [read] at h
  cases hitems : readItems content with
  | error fault =>
    rw [hitems] at h
    cases h
  | ok items =>
    rw [hitems] at h
    cases h
    exact ⟨items, rfl, rfl⟩

/-- Under a normalized name a source holds what the file assigns under all headers that stand for
the same section. -/
theorem find?_normalized_ofItems (path : String) (items : List Item) (name key : String) :
    (ofItems path items).normalized.find? (normalizeName name) key =
      someValues (valuesUnder (SameSection · name) key items) := by
  rw [ofItems, Sections.find?_ofItems, valuesUnder_rename]
  rw [valuesUnder_congr fun header => normalizeName_eq_iff]

theorem find?_cons (source : Source) (name key : String) (rest : List (String × String)) :
    source.find? ((name, key) :: rest) =
      (source.normalized.find? name key).or (source.find? rest) := by
  rw [find?, List.findSome?_cons]
  cases hfound : source.normalized.find? name key with
  | none =>
    rw [Sections.find?] at hfound
    simp only [hfound, Option.none_or]
    rfl
  | some values =>
    rw [Sections.find?] at hfound
    simp only [hfound, Option.some_or]

end Source

end LayeredConfig
