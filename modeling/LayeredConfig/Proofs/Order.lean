import LayeredConfig.Proofs.ByteOrder
import LayeredConfig.Proofs.Keyed

/-!
# The order of all options

Checks and reports go through all options in one order: those outside all groups
come first, then the groups by name, and the options of each of them by dest,
where names and dests are ordered by their bytes. Where options are kept under
their own dests, the list that is gone through has every option exactly once.
-/

namespace LayeredConfig

namespace Table

variable {entries : Table Entry}

theorem Keyed.of_mem (h : entries.Keyed) {binding : String × Entry}
    (hmem : binding ∈ entries.toList) : binding.2.schema.dest = binding.1 :=
  (h binding.1 binding.2 (get?_eq_some_iff.2 hmem)).dest_eq

theorem Keyed.mem_values_iff (h : entries.Keyed) {entry : Entry} :
    entry ∈ entries.values ↔ entries.get? entry.schema.dest = some entry := by
  rw [values, List.mem_map]
  constructor
  · rintro ⟨binding, hmem, rfl⟩
    rw [h.of_mem hmem]
    exact get?_eq_some_iff.2 hmem
  · intro hget
    exact ⟨(entry.schema.dest, entry), get?_eq_some_iff.1 hget, rfl⟩

theorem Keyed.pairwise_values (h : entries.Keyed) :
    entries.values.Pairwise fun a b => a.schema.dest < b.schema.dest := by
  rw [values, List.pairwise_map]
  refine entries.ascending.imp_of_mem fun {a b} ha hb hlt => ?_
  rw [h.of_mem ha, h.of_mem hb]
  exact hlt

end Table

namespace Registry

variable {r : Registry}

/-- One option, with its group, comes before another. Names are compared byte by byte. -/
def Precedes (a b : Option String × Entry) : Prop :=
  match a.1, b.1 with
  | none, none => Text.bytes a.2.schema.dest < Text.bytes b.2.schema.dest
  | none, some _ => True
  | some _, none => False
  | some group, some group' =>
    Text.bytes group < Text.bytes group' ∨
      (group = group' ∧ Text.bytes a.2.schema.dest < Text.bytes b.2.schema.dest)

theorem Keyed.top (h : r.Keyed) : r.top.Keyed :=
  h.of_entries? (show r.entries? none = .ok r.top from rfl)

theorem Keyed.member (h : r.Keyed) {binding : String × Member}
    (hmem : binding ∈ r.groups.toList) : binding.2.entries.Keyed := by
  have hentries : r.entries? (some binding.1) = .ok binding.2.entries :=
    entries?_some_eq_ok_iff.2 ⟨binding.2, Table.get?_eq_some_iff.2 hmem, rfl⟩
  exact h.of_entries? hentries

theorem mem_all_none {entry : Entry} : (none, entry) ∈ r.all ↔ entry ∈ r.top.values := by
  simp [all]

theorem mem_all_some {name : String} {entry : Entry} :
    (some name, entry) ∈ r.all ↔
      ∃ m, (name, m) ∈ r.groups.toList ∧ entry ∈ m.entries.values := by
  simp only [all, List.mem_append, List.mem_map, List.mem_flatMap, Prod.mk.injEq,
    reduceCtorEq, false_and, and_false, exists_false, false_or, Option.some.injEq]
  constructor
  · rintro ⟨⟨name', m⟩, hmem, entry', hentry, rfl, rfl⟩
    exact ⟨m, hmem, hentry⟩
  · rintro ⟨m, hmem, hentry⟩
    exact ⟨(name, m), hmem, entry, hentry, rfl, rfl⟩

theorem Keyed.mem_all_iff (h : r.Keyed) {group : Option String} {entry : Entry} :
    (group, entry) ∈ r.all ↔ r.entryAt? entry.schema.dest group = some entry := by
  cases group with
  | none =>
    have hentries : r.entries? none = .ok r.top := rfl
    rw [mem_all_none, h.top.mem_values_iff, entryAt?_of_entries?_ok hentries]
  | some name =>
    rw [mem_all_some]
    constructor
    · rintro ⟨m, hmem, hentry⟩
      have hget := (h.member hmem).mem_values_iff.1 hentry
      have hentries : r.entries? (some name) = .ok m.entries :=
        entries?_some_eq_ok_iff.2 ⟨m, Table.get?_eq_some_iff.2 hmem, rfl⟩
      rw [entryAt?_of_entries?_ok hentries]
      exact hget
    · intro hentry
      obtain ⟨entries, hentries, hget⟩ := exists_entries?_of_entryAt? hentry
      obtain ⟨m, hm, rfl⟩ := entries?_some_eq_ok_iff.1 hentries
      have hmem := Table.get?_eq_some_iff.1 hm
      exact ⟨m, hmem, (h.member hmem).mem_values_iff.2 hget⟩

/-- All options come in order, and none of them twice. -/
theorem Keyed.pairwise_all (h : r.Keyed) : r.all.Pairwise Precedes := by
  rw [all, List.pairwise_append]
  refine ⟨?_, ?_, ?_⟩
  · rw [List.pairwise_map]
    exact h.top.pairwise_values.imp Text.bytes_lt
  · rw [List.pairwise_flatMap]
    constructor
    · intro binding hmem
      rw [List.pairwise_map]
      exact (h.member hmem).pairwise_values.imp fun hlt => .inr ⟨rfl, Text.bytes_lt hlt⟩
    · refine r.groups.ascending.imp fun {a b} hlt x hx y hy => ?_
      obtain ⟨entry, -, rfl⟩ := List.mem_map.1 hx
      obtain ⟨entry', -, rfl⟩ := List.mem_map.1 hy
      exact .inl (Text.bytes_lt hlt)
  · intro a ha b hb
    obtain ⟨entry, -, rfl⟩ := List.mem_map.1 ha
    obtain ⟨binding, -, hb⟩ := List.mem_flatMap.1 hb
    obtain ⟨entry', -, rfl⟩ := List.mem_map.1 hb
    trivial

end Registry

end LayeredConfig
