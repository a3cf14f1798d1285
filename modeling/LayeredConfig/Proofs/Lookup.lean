import LayeredConfig.Operation

/-!
# Options by place

The place of an option is its dest and its group. `Registry.entryAt?` is what is
known of the option at a place, and here every change of a registry is described
by what it does to this view: a registration adds one entry at its own place, a
removal takes entries of one group away, and everything else changes entries
where they stand. What is at other places stays as it was.
-/

namespace LayeredConfig.Registry

variable {r : Registry}

/-- What is known of the option at a place, if there is one. -/
def entryAt? (r : Registry) (dest : String) (group : Option String) : Option Entry :=
  (r.entry? dest group).toOption

theorem entry?_eq_ok_iff {dest : String} {group : Option String} {entry : Entry} :
    r.entry? dest group = .ok entry ↔ r.entryAt? dest group = some entry := by
  rw [entryAt?]
  cases r.entry? dest group with
  | error e => simp [Except.toOption]
  | ok entry => simp [Except.toOption]

theorem entryAt?_of_entries?_ok {group : Option String} {entries : Table Entry}
    (h : r.entries? group = .ok entries) (dest : String) :
    r.entryAt? dest group = entries.get? dest := by
  simp only [entryAt?, entry?, h]
  cases entries.get? dest with
  | none => rfl
  | some entry => rfl

theorem entryAt?_of_entries?_error {group : Option String} {e : ConfigError}
    (h : r.entries? group = .error e) (dest : String) : r.entryAt? dest group = none := by
  simp only [entryAt?, entry?, h]
  rfl

theorem exists_entries?_of_entryAt? {dest : String} {group : Option String} {entry : Entry}
    (h : r.entryAt? dest group = some entry) :
    ∃ entries, r.entries? group = .ok entries ∧ entries.get? dest = some entry := by
  cases hentries : r.entries? group with
  | error e =>
    rw [entryAt?_of_entries?_error hentries] at h
    cases h
  | ok entries =>
    rw [entryAt?_of_entries?_ok hentries] at h
    exact ⟨entries, rfl, h⟩

theorem entries?_some_eq_ok_iff {name : String} {entries : Table Entry} :
    r.entries? (some name) = .ok entries ↔
      ∃ m, r.groups.get? name = some m ∧ m.entries = entries := by
  rw [entries?]
  cases r.groups.get? name with
  | none => simp
  | some m => simp

theorem entries?_some_eq_error_iff {name : String} {e : ConfigError} :
    r.entries? (some name) = .error e ↔
      r.groups.get? name = none ∧ e = .noSuchGroup name := by
  rw [entries?]
  cases r.groups.get? name with
  | none => simp [eq_comm]
  | some m => simp

/-- Replacing the table of a group that is there, or the one outside all groups. -/
theorem entries?_setEntries {group : Option String} {old : Table Entry}
    (h : r.entries? group = .ok old) (new : Table Entry) (other : Option String) :
    (r.setEntries group new).entries? other =
      if other = group then .ok new else r.entries? other := by
  cases group with
  | none =>
    cases other with
    | none => rfl
    | some name => rfl
  | some name =>
    obtain ⟨m, hm, -⟩ := entries?_some_eq_ok_iff.1 h
    simp only [setEntries, hm]
    cases other with
    | none => rfl
    | some other =>
      by_cases hother : other = name
      · simp [entries?, Table.get?_insert, hother]
      · simp [entries?, Table.get?_insert, hother]

theorem entryAt?_setEntries {group : Option String} {old : Table Entry}
    (h : r.entries? group = .ok old) (new : Table Entry) (dest : String)
    (other : Option String) :
    (r.setEntries group new).entryAt? dest other =
      if other = group then new.get? dest else r.entryAt? dest other := by
  have hset := entries?_setEntries h new other
  by_cases hother : other = group
  · rw [if_pos hother] at hset ⊢
    exact entryAt?_of_entries?_ok hset dest
  · rw [if_neg hother] at hset ⊢
    simp only [entryAt?, entry?, hset]

theorem ensure_of_entries?_ok {group : Group} {entries : Table Entry}
    (h : r.entries? (some group.name) = .ok entries) : r.ensure group = r := by
  obtain ⟨m, hm, -⟩ := entries?_some_eq_ok_iff.1 h
  rw [ensure, if_pos]
  simp [Table.contains, hm]

theorem entries?_ensure_of_error {group : Group} {e : ConfigError}
    (h : r.entries? (some group.name) = .error e) (other : Option String) :
    (r.ensure group).entries? other =
      if other = some group.name then .ok Table.empty else r.entries? other := by
  obtain ⟨hnone, -⟩ := entries?_some_eq_error_iff.1 h
  rw [ensure, if_neg (by simp [Table.contains, hnone])]
  cases other with
  | none => rfl
  | some other =>
    by_cases hother : other = group.name
    · simp [entries?, Table.get?_insert, hother]
    · simp [entries?, Table.get?_insert, hother]

@[simp] theorem entryAt?_ensure (r : Registry) (group : Group) (dest : String)
    (other : Option String) : (r.ensure group).entryAt? dest other = r.entryAt? dest other := by
  cases hentries : r.entries? (some group.name) with
  | ok entries => rw [ensure_of_entries?_ok hentries]
  | error e =>
    have hensure := entries?_ensure_of_error hentries other
    by_cases hother : other = some group.name
    · rw [if_pos hother] at hensure
      rw [entryAt?_of_entries?_ok hensure, hother, entryAt?_of_entries?_error hentries]
      rfl
    · rw [if_neg hother] at hensure
      simp only [entryAt?, entry?, hensure]

theorem entryAt?_reset (r : Registry) (dest : String) (group : Option String) :
    r.reset.entryAt? dest group = (r.entryAt? dest group).map Entry.fresh := by
  have hentries : r.reset.entries? group =
      (r.entries? group).map fun entries => entries.map fun _ => Entry.fresh := by
    cases group with
    | none => rfl
    | some name =>
      simp only [entries?, reset, clear, Table.get?_map]
      cases r.groups.get? name with
      | none => rfl
      | some m => rfl
  cases hold : r.entries? group with
  | error e =>
    rw [hold] at hentries
    rw [entryAt?_of_entries?_error hold, entryAt?_of_entries?_error hentries]
    rfl
  | ok entries =>
    rw [hold] at hentries
    rw [entryAt?_of_entries?_ok hold, entryAt?_of_entries?_ok hentries, Table.get?_map]

end LayeredConfig.Registry
