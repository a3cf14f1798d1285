/-!
# Tables in ascending key order

A `Table` is a finite map from names to data, kept as the list of its bindings
in strictly ascending key order. The order is the one of `String`, by code
point, which is also the order of the encoded bytes; everything that is shown
name by name is shown in it.

Because the order is part of the type, a table has no second form: two tables
with the same lookups are equal (`Table.ext_get?`). Every operation is pinned
down by what it does to lookups, and later reasoning needs nothing else.
-/

namespace LayeredConfig

namespace Bindings

variable {α β : Type}

/-- A list of bindings whose keys strictly ascend. -/
def Ascending (bindings : List (String × α)) : Prop :=
  bindings.Pairwise fun a b => a.1 < b.1

/-- The datum bound to a key. -/
def get? (key : String) : List (String × α) → Option α
  | [] => none
  | (k, x) :: rest => if key = k then some x else get? key rest

/-- Bind a key at its place in the order, replacing what it was bound to. -/
def insert (key : String) (datum : α) : List (String × α) → List (String × α)
  | [] => [(key, datum)]
  | (k, x) :: rest =>
    if key < k then (key, datum) :: (k, x) :: rest
    else if key = k then (key, datum) :: rest
    else (k, x) :: insert key datum rest

theorem mem_insert {key : String} {datum : α} {bindings : List (String × α)}
    {b : String × α} (h : b ∈ insert key datum bindings) :
    b = (key, datum) ∨ b ∈ bindings := by
  induction bindings with
  | nil => simpa [insert] using h
  | cons hd tl ih =>
    obtain ⟨k, x⟩ := hd
    rw [insert] at h
    split at h
    · simpa using h
    · split at h <;> grind

theorem ascending_insert (key : String) (datum : α) {bindings : List (String × α)}
    (h : Ascending bindings) : Ascending (insert key datum bindings) := by
  induction bindings with
  | nil => simp [insert, Ascending]
  | cons hd tl ih =>
    obtain ⟨k, x⟩ := hd
    obtain ⟨hk, htl⟩ := List.pairwise_cons.1 h
    rw [insert]
    split
    · next hlt =>
      refine List.pairwise_cons.2 ⟨fun b hb => ?_, h⟩
      rcases List.mem_cons.1 hb with rfl | hb
      · exact hlt
      · exact String.lt_trans hlt (hk b hb)
    · next hnlt =>
      split
      · next heq =>
        subst heq
        exact List.pairwise_cons.2 ⟨hk, htl⟩
      · next hne =>
        refine List.pairwise_cons.2 ⟨fun b hb => ?_, ih htl⟩
        rcases mem_insert hb with rfl | hb
        · exact Classical.byContradiction fun hn =>
            hne (String.le_antisymm (String.not_lt.1 hn) (String.not_lt.1 hnlt))
        · exact hk b hb

theorem get?_eq_none_of_lt {key : String} {bindings : List (String × α)}
    (h : ∀ b ∈ bindings, key < b.1) : get? key bindings = none := by
  induction bindings with
  | nil => rfl
  | cons hd tl ih =>
    obtain ⟨k, x⟩ := hd
    have hlt : key < k := h (k, x) List.mem_cons_self
    have hne : key ≠ k := fun e => String.lt_irrefl k (e ▸ hlt)
    rw [get?, if_neg hne]
    exact ih fun b hb => h b (List.mem_cons_of_mem _ hb)

theorem get?_insert (key other : String) (datum : α) (bindings : List (String × α)) :
    get? other (insert key datum bindings) =
      if other = key then some datum else get? other bindings := by
  induction bindings with
  | nil => simp [insert, get?]
  | cons hd tl ih =>
    obtain ⟨k, x⟩ := hd
    rw [insert]
    split
    · simp [get?]
    · split
      · next heq => subst heq; by_cases ho : other = key <;> simp [get?, ho]
      · next hne =>
        by_cases ho : other = k
        · subst ho; simp [get?, Ne.symm hne]
        · simp [get?, ho, ih]

theorem get?_filter_ne (key other : String) (bindings : List (String × α)) :
    get? other (bindings.filter fun b => !decide (b.1 = key)) =
      if other = key then none else get? other bindings := by
  induction bindings with
  | nil => simp [get?]
  | cons hd tl ih =>
    obtain ⟨k, x⟩ := hd
    by_cases hk : k = key
    · subst hk
      rw [List.filter_cons_of_neg (by simp), ih]
      by_cases ho : other = k <;> simp [get?, ho]
    · by_cases ho : other = k
      · subst ho; simp [get?, hk]
      · simp [get?, hk, ho, ih]

theorem get?_map (f : String → α → β) (key : String) (bindings : List (String × α)) :
    get? key (bindings.map fun b => (b.1, f b.1 b.2)) = (get? key bindings).map (f key) := by
  induction bindings with
  | nil => rfl
  | cons hd tl ih =>
    obtain ⟨k, x⟩ := hd
    by_cases h : key = k
    · subst h; simp [get?]
    · simp [get?, h, ih]

theorem ascending_map (f : String → α → β) {bindings : List (String × α)}
    (h : Ascending bindings) : Ascending (bindings.map fun b => (b.1, f b.1 b.2)) := by
  rw [Ascending, List.pairwise_map]
  exact h

theorem get?_isSome_iff {key : String} {bindings : List (String × α)} :
    (get? key bindings).isSome ↔ key ∈ bindings.map Prod.fst := by
  induction bindings with
  | nil => simp [get?]
  | cons hd tl ih =>
    obtain ⟨k, x⟩ := hd
    by_cases h : key = k
    · simp [get?, h]
    · rw [get?, if_neg h, ih]
      simp [h]

theorem get?_eq_some_iff_of_nodup {key : String} {datum : α} {bindings : List (String × α)}
    (h : (bindings.map Prod.fst).Nodup) :
    get? key bindings = some datum ↔ (key, datum) ∈ bindings := by
  induction bindings with
  | nil => simp [get?]
  | cons hd tl ih =>
    obtain ⟨k, x⟩ := hd
    obtain ⟨hk, htl⟩ := List.nodup_cons.1 h
    by_cases e : key = k
    · subst e
      have hn : (key, datum) ∉ tl := fun hm => hk (List.mem_map.2 ⟨_, hm, rfl⟩)
      simp [get?, hn, eq_comm]
    · simp [get?, e, ih htl]

theorem Ascending.nodup {bindings : List (String × α)} (h : Ascending bindings) :
    (bindings.map Prod.fst).Nodup := by
  refine List.pairwise_map.2 (List.Pairwise.imp ?_ h)
  intro a b hlt heq
  exact String.lt_irrefl b.1 (heq ▸ hlt)

theorem get?_eq_some_iff {key : String} {datum : α} {bindings : List (String × α)}
    (h : Ascending bindings) : get? key bindings = some datum ↔ (key, datum) ∈ bindings :=
  get?_eq_some_iff_of_nodup h.nodup

theorem ext_get? {xs ys : List (String × α)} (hx : Ascending xs) (hy : Ascending ys)
    (h : ∀ key, get? key xs = get? key ys) : xs = ys := by
  induction xs generalizing ys with
  | nil =>
    cases ys with
    | nil => rfl
    | cons hd tl =>
      obtain ⟨k, x⟩ := hd
      have := h k
      simp [get?] at this
  | cons hd tl ih =>
    obtain ⟨k, x⟩ := hd
    cases ys with
    | nil =>
      have := h k
      simp [get?] at this
    | cons hd' tl' =>
      obtain ⟨k', x'⟩ := hd'
      obtain ⟨hk, htl⟩ := List.pairwise_cons.1 hx
      obtain ⟨hk', htl'⟩ := List.pairwise_cons.1 hy
      have hkk : k = k' := by
        refine Classical.byContradiction fun hne => ?_
        have h1 : (k, x) ∈ (k', x') :: tl' := by
          rw [← get?_eq_some_iff hy, ← h k]; simp [get?]
        have h2 : (k', x') ∈ (k, x) :: tl := by
          rw [← get?_eq_some_iff hx, h k']; simp [get?]
        have h1' : (k, x) ∈ tl' := by simpa [hne] using h1
        have h2' : (k', x') ∈ tl := by simpa [Ne.symm hne] using h2
        exact String.lt_irrefl k (String.lt_trans (hk _ h2') (hk' _ h1'))
      subst hkk
      have hxx : x = x' := by simpa [get?] using h k
      subst hxx
      have : tl = tl' := ih htl htl' fun key => by
        by_cases e : key = k
        · subst e
          rw [get?_eq_none_of_lt hk, get?_eq_none_of_lt hk']
        · simpa [get?, e] using h key
      rw [this]

end Bindings

/-- A finite map from names to data, listed in ascending order of the names. -/
structure Table (α : Type) where
  toList : List (String × α) := []
  ascending : Bindings.Ascending toList := by exact List.Pairwise.nil

namespace Table

variable {α β : Type}

def empty : Table α := {}

instance : Inhabited (Table α) := ⟨empty⟩

/-- The datum bound to a name, if any. -/
def get? (table : Table α) (key : String) : Option α :=
  Bindings.get? key table.toList

def contains (table : Table α) (key : String) : Bool :=
  (table.get? key).isSome

/-- Bind a name, replacing what it was bound to. -/
def insert (table : Table α) (key : String) (datum : α) : Table α :=
  ⟨Bindings.insert key datum table.toList, Bindings.ascending_insert key datum table.ascending⟩

/-- Remove a name. -/
def erase (table : Table α) (key : String) : Table α :=
  ⟨table.toList.filter fun b => !decide (b.1 = key), List.Pairwise.filter _ table.ascending⟩

/-- Change the datum of every name. -/
def map (f : String → α → β) (table : Table α) : Table β :=
  ⟨table.toList.map fun b => (b.1, f b.1 b.2), Bindings.ascending_map f table.ascending⟩

/-- Bind names from left to right; a later binding of a name replaces an earlier one. -/
def ofList (bindings : List (String × α)) : Table α :=
  bindings.foldl (fun table b => table.insert b.1 b.2) empty

/-- The names, ascending. -/
def keys (table : Table α) : List String :=
  table.toList.map Prod.fst

/-- The data, in the order of their names. -/
def values (table : Table α) : List α :=
  table.toList.map Prod.snd

def size (table : Table α) : Nat :=
  table.toList.length

@[simp] theorem get?_empty (key : String) : (empty : Table α).get? key = none := rfl

theorem get?_insert (table : Table α) (key other : String) (datum : α) :
    (table.insert key datum).get? other =
      if other = key then some datum else table.get? other :=
  Bindings.get?_insert key other datum table.toList

theorem contains_insert (table : Table α) (key other : String) (datum : α) :
    (table.insert key datum).contains other = (decide (other = key) || table.contains other) := by
  rw [contains, get?_insert]
  by_cases h : other = key
  · simp [h]
  · simp [h, contains]

theorem get?_erase (table : Table α) (key other : String) :
    (table.erase key).get? other = if other = key then none else table.get? other :=
  Bindings.get?_filter_ne key other table.toList

@[simp] theorem get?_map (f : String → α → β) (table : Table α) (key : String) :
    (table.map f).get? key = (table.get? key).map (f key) :=
  Bindings.get?_map f key table.toList

theorem contains_iff_mem_keys {table : Table α} {key : String} :
    table.contains key ↔ key ∈ table.keys :=
  Bindings.get?_isSome_iff

theorem get?_eq_some_iff {table : Table α} {key : String} {datum : α} :
    table.get? key = some datum ↔ (key, datum) ∈ table.toList :=
  Bindings.get?_eq_some_iff table.ascending

@[ext] theorem ext {s t : Table α} (h : s.toList = t.toList) : s = t := by
  cases s
  cases t
  simp_all

/-- A table is determined by its lookups. -/
theorem ext_get? {s t : Table α} (h : ∀ key, s.get? key = t.get? key) : s = t :=
  ext (Bindings.ext_get? s.ascending t.ascending h)

theorem get?_foldl_insert {bindings : List (String × α)}
    (h : (bindings.map Prod.fst).Nodup) (table : Table α) (key : String) :
    (bindings.foldl (fun table b => table.insert b.1 b.2) table).get? key =
      (Bindings.get? key bindings).or (table.get? key) := by
  induction bindings generalizing table with
  | nil => rfl
  | cons binding rest ih =>
    obtain ⟨name, datum⟩ := binding
    obtain ⟨hname, hrest⟩ := List.nodup_cons.1 h
    rw [List.foldl_cons, ih hrest, get?_insert, Bindings.get?]
    by_cases hkey : key = name
    · subst hkey
      have hnone : Bindings.get? key rest = none := by
        rw [← Option.not_isSome_iff_eq_none, Bindings.get?_isSome_iff]
        exact hname
      simp [hnone]
    · simp [hkey]

theorem nodup_keys (table : Table α) : table.keys.Nodup :=
  table.ascending.nodup

@[simp] theorem ofList_toList (table : Table α) : ofList table.toList = table := by
  apply ext_get?
  intro key
  rw [ofList, get?_foldl_insert table.nodup_keys, get?_empty, Option.or_none]
  rfl

theorem perm_ofList {bindings : List (String × α)} (h : (bindings.map Prod.fst).Nodup) :
    (ofList bindings).toList.Perm bindings := by
  have hnodup : ∀ {entries : List (String × α)}, (entries.map Prod.fst).Nodup → entries.Nodup :=
    List.Pairwise.of_map Prod.fst fun a b hne heq => hne (congrArg Prod.fst heq)
  apply (List.perm_ext_iff_of_nodup (hnodup (nodup_keys _)) (hnodup h)).2
  intro ⟨key, datum⟩
  rw [← get?_eq_some_iff, ofList, get?_foldl_insert h, get?_empty, Option.or_none,
    Bindings.get?_eq_some_iff_of_nodup h]

theorem map_insert (f : String → α → β) (table : Table α) (key : String) (datum : α) :
    (table.insert key datum).map f = (table.map f).insert key (f key datum) := by
  refine ext_get? fun other => ?_
  rw [get?_map, get?_insert, get?_insert, get?_map]
  split
  · next hother => rw [hother, Option.map_some]
  · rfl

theorem map_erase (f : String → α → β) (table : Table α) (key : String) :
    (table.erase key).map f = (table.map f).erase key := by
  refine ext_get? fun other => ?_
  rw [get?_map, get?_erase, get?_erase, get?_map]
  split
  · rfl
  · rfl

theorem map_map {γ : Type} (f : String → α → β) (g : String → β → γ) (table : Table α) :
    (table.map f).map g = table.map fun key datum => g key (f key datum) := by
  refine ext_get? fun key => ?_
  rw [get?_map, get?_map, get?_map, Option.map_map]
  rfl

@[simp] theorem contains_map (f : String → α → β) (table : Table α) (key : String) :
    (table.map f).contains key = table.contains key := by
  rw [contains, contains, get?_map, Option.isSome_map]

end Table

end LayeredConfig
