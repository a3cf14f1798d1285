import LayeredConfig.Proofs.Assignments
import Mathlib.Data.List.Basic

/-!
# The normalized copy

A source holds its sections twice: under the names as written, which are shown,
and under normalized names, which are looked up. The two say the same of the
file. The normalized names are the normal forms of the written ones, and what
stands at a key under a normalized name is put together from what stands at the
key under all spellings of that name: each of these lists in its own order, and
the lists merged as the file merges them.

What merges them is one list, the assignments to the key under any spelling, in
file order and each with the spelling that it stands under. Without the
spellings it is the list of the normalized copy, and the part of it that has one
spelling is the list of that written section.
-/

namespace LayeredConfig

/-- An assignment to a key under a header with a property: the header and the value. -/
def Item.assigned? (opens : String → Prop) [DecidablePred opens] (key : String) :
    Item → Option (String × String)
  | header _ => none
  | assignment name k value => if opens name ∧ k = key then some (name, value) else none

/-- The assignments to a key under the headers with a property, in file order, each with the
header that it stands under. -/
def assignmentsUnder (opens : String → Prop) [DecidablePred opens] (key : String)
    (items : List Item) : List (String × String) :=
  items.filterMap (Item.assigned? opens key)

/-- Values that each have a name are an order-preserving interleaving of the rows of the names with
a property: they are the merged row, and the part of them under one name is the row of that name. -/
structure Interleaves (assigned : List (String × String)) (takesPart : String → Prop)
    (row : String → List String) (merged : List String) : Prop where
  merged : assigned.map Prod.snd = merged
  name : ∀ a ∈ assigned, takesPart a.1
  row : ∀ name, takesPart name → (assigned.filter fun a => a.1 = name).map Prod.snd = row name

theorem Interleaves.ne_nil_iff {assigned : List (String × String)} {takesPart : String → Prop}
    {row : String → List String} {merged : List String}
    (h : Interleaves assigned takesPart row merged) :
    merged ≠ [] ↔ ∃ name, takesPart name ∧ row name ≠ [] := by
  constructor
  · intro hmerged
    rw [← h.merged, ne_eq, List.map_eq_nil_iff] at hmerged
    obtain ⟨a, ha⟩ := List.exists_mem_of_ne_nil assigned hmerged
    refine ⟨a.1, h.name a ha, ?_⟩
    rw [← h.row a.1 (h.name a ha)]
    exact List.ne_nil_of_mem
      (List.mem_map_of_mem (List.mem_filter.2 ⟨ha, decide_eq_true rfl⟩))
  · rintro ⟨name, hname, hrow⟩ hnil
    rw [← h.merged, List.map_eq_nil_iff] at hnil
    rw [← h.row name hname, hnil] at hrow
    exact hrow rfl

section Assignments

variable (opens : String → Prop) [DecidablePred opens] (key : String) (items : List Item)

theorem map_snd_assignmentsUnder :
    (assignmentsUnder opens key items).map Prod.snd = valuesUnder opens key items := by
  rw [assignmentsUnder, valuesUnder, List.map_filterMap]
  congr 1
  funext item
  cases item with
  | header name => rfl
  | assignment name k value =>
    rw [Item.assigned?, Item.valueFor?]
    split
    · rfl
    · rfl

theorem opens_of_mem_assignmentsUnder {a : String × String}
    (h : a ∈ assignmentsUnder opens key items) : opens a.1 := by
  obtain ⟨item, -, hitem⟩ := List.mem_filterMap.1 h
  cases item with
  | header name => cases hitem
  | assignment name k value =>
    obtain ⟨⟨hname, -⟩, hsome⟩ := Option.ite_none_right_eq_some.1 hitem
    cases hsome
    exact hname

theorem filter_assignmentsUnder {name : String} (hname : opens name) :
    (assignmentsUnder opens key items).filter (fun a => a.1 = name) =
      assignmentsUnder (· = name) key items := by
  rw [assignmentsUnder, assignmentsUnder, List.filter_filterMap]
  congr 1
  funext item
  cases item with
  | header opened => rfl
  | assignment opened k value =>
    by_cases hopened : opened = name
    · subst hopened
      by_cases hkey : k = key
      · simp [Item.assigned?, hname, hkey]
      · simp [Item.assigned?, hkey]
    · by_cases hplace : opens opened ∧ k = key
      · simp [Item.assigned?, hplace, hopened]
      · simp [Item.assigned?, hplace, hopened]

end Assignments

theorem Item.name_rename (f : String → String) (item : Item) :
    (item.rename f).name = f item.name := by
  cases item with
  | header name => rfl
  | assignment name key value => rfl

namespace Source

/-- The two copies in a source agree on a file with these items. -/
structure Agrees (source : Source) (items : List Item) : Prop where
  written : source.sections = Sections.ofItems items
  /-- The normalized copy is what the same items give under normalized headers. -/
  renamed : source.normalized = Sections.ofItems (items.map (Item.rename normalizeName))
  /-- The normalized names are the normal forms of the written ones. -/
  name : ∀ name, name ∈ source.normalized.keys ↔
    ∃ written ∈ source.sections.keys, normalizeName written = name
  /-- A key is there under a normalized name if it is there under some spelling of the name. -/
  key : ∀ name key, (source.normalized.find? name key).isSome = true ↔
    ∃ written, normalizeName written = name ∧ (source.sections.find? written key).isSome = true
  /-- The values under all spellings of a name are merged in file order. -/
  values : ∀ name key,
    Interleaves (assignmentsUnder (normalizeName · = name) key items) (normalizeName · = name)
      (source.sections.valuesOf · key) (source.normalized.valuesOf name key)
  /-- A name that is spelled in one way only has the values under that spelling. -/
  only : ∀ written key,
    (∀ other ∈ source.sections.keys, normalizeName other = normalizeName written →
      other = written) →
    source.normalized.find? (normalizeName written) key = source.sections.find? written key

variable (path : String) (items : List Item)

theorem mem_keys_normalized (name : String) :
    name ∈ (ofItems path items).normalized.keys ↔
      ∃ written ∈ (ofItems path items).sections.keys, normalizeName written = name := by
  simp only [ofItems, Sections.mem_keys_ofItems, List.mem_map]
  constructor
  · rintro ⟨_, ⟨item, hitem, rfl⟩, rfl⟩
    exact ⟨item.name, ⟨item, hitem, rfl⟩, (Item.name_rename normalizeName item).symm⟩
  · rintro ⟨_, ⟨item, hitem, rfl⟩, rfl⟩
    exact ⟨item.rename normalizeName, ⟨item, hitem, rfl⟩, Item.name_rename normalizeName item⟩

theorem interleaves_normalized (name key : String) :
    Interleaves (assignmentsUnder (normalizeName · = name) key items) (normalizeName · = name)
      ((ofItems path items).sections.valuesOf · key)
      ((ofItems path items).normalized.valuesOf name key) where
  merged := by
    rw [map_snd_assignmentsUnder, ofItems, Sections.valuesOf_ofItems, valuesUnder_rename]
  name a ha := opens_of_mem_assignmentsUnder (normalizeName · = name) key items ha
  row written hwritten := by
    rw [filter_assignmentsUnder (normalizeName · = name) key items hwritten,
      map_snd_assignmentsUnder, ofItems, Sections.valuesOf_ofItems]

theorem isSome_find?_normalized (name key : String) :
    ((ofItems path items).normalized.find? name key).isSome = true ↔
      ∃ written, normalizeName written = name ∧
        ((ofItems path items).sections.find? written key).isSome = true := by
  have hinterleaves := interleaves_normalized path items name key
  rw [ofItems] at hinterleaves ⊢
  simp only [Sections.isSome_find?_ofItems]
  exact hinterleaves.ne_nil_iff

theorem find?_normalized_only {written key : String}
    (h : ∀ other ∈ (ofItems path items).sections.keys,
      normalizeName other = normalizeName written → other = written) :
    (ofItems path items).normalized.find? (normalizeName written) key =
      (ofItems path items).sections.find? written key := by
  rw [ofItems, Sections.find?_ofItems, Sections.find?_ofItems, valuesUnder_rename]
  congr 1
  refine List.filterMap_congr fun item hitem => ?_
  cases item with
  | header name => rfl
  | assignment name k value =>
    have hname : normalizeName name = normalizeName written ↔ name = written :=
      ⟨h name (Sections.mem_keys_ofItems.2 ⟨_, hitem, rfl⟩), fun heq => heq ▸ rfl⟩
    simp only [Item.valueFor?, hname]

theorem agrees_ofItems : (ofItems path items).Agrees items where
  written := rfl
  renamed := rfl
  name := mem_keys_normalized path items
  key := isSome_find?_normalized path items
  values := interleaves_normalized path items
  only _ _ h := find?_normalized_only path items h

/-- The two copies of every file that is accepted agree, on the items that the file states. -/
theorem normalized_agrees {path content : String} {source : Source}
    (h : read path content = .ok source) :
    ∃ items, readItems content = .ok items ∧ source.Agrees items := by
  obtain ⟨items, hitems, rfl⟩ := exists_items_of_read h
  exact ⟨items, hitems, agrees_ofItems path items⟩

/-- A file with three spellings of one name, two of which are the same section, in turns. -/
def turns : String :=
  "[Default]\nk = a\n[DEFAULT]\nk = b\n[default]\nk = c\n[Default]\nk = d\n[Empty]\n"

theorem normalized_agrees_turns :
    ∃ source items, read "a.conf" turns = .ok source ∧ readItems turns = .ok items ∧
      source.Agrees items ∧
      source.normalized.find? "default" "k" = some ["a", "c", "d"] ∧
      source.normalized.find? "DEFAULT" "k" = some ["b"] ∧
      source.normalized.keys = ["DEFAULT", "default", "empty"] := by
  have hread : read "a.conf" turns = .ok (ofItems "a.conf"
      [.header "Default", .assignment "Default" "k" "a", .header "DEFAULT",
        .assignment "DEFAULT" "k" "b", .header "default", .assignment "default" "k" "c",
        .header "Default", .assignment "Default" "k" "d", .header "Empty"]) := rfl
  obtain ⟨items, hitems, hagrees⟩ := normalized_agrees hread
  exact ⟨_, items, hread, hitems, hagrees, rfl, rfl, rfl⟩

end Source

end LayeredConfig
