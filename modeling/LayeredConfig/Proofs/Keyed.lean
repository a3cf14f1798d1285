import LayeredConfig.Proofs.Invariant

/-!
# Options are kept under their own dests

In every registry that a run leads to, an option is kept under its own dest and
none has a name that is not for callers. Registration is what puts this right,
and no other operation puts an option in a new place or changes its schema.
-/

namespace LayeredConfig

/-- An entry may be kept under a dest: it is its own, and its name is for callers. -/
structure Entry.Belongs (entry : Entry) (dest : String) : Prop where
  dest_eq : entry.schema.dest = dest
  name : entry.schema.isReserved = false

theorem Entry.Belongs.of_schema_eq {entry entry' : Entry} {dest : String}
    (h : entry.Belongs dest) (hschema : entry'.schema = entry.schema) : entry'.Belongs dest :=
  ⟨hschema ▸ h.dest_eq, hschema ▸ h.name⟩

namespace Table

/-- Every option of a table is kept where it belongs. -/
def Keyed (entries : Table Entry) : Prop :=
  ∀ dest entry, entries.get? dest = some entry → entry.Belongs dest

theorem Keyed.insert {entries : Table Entry} (h : entries.Keyed) {dest : String} {entry : Entry}
    (hentry : entry.Belongs dest) : (entries.insert dest entry).Keyed := by
  intro other known hget
  rw [get?_insert] at hget
  split at hget
  · next hother =>
    cases hget
    rw [hother]
    exact hentry
  · exact h other known hget

theorem get?_foldl_erase (schemas : List Schema) (table : Table Entry) (dest : String) :
    (schemas.foldl (fun t schema => t.erase schema.dest) table).get? dest =
      if dest ∈ schemas.map Schema.dest then none else table.get? dest := by
  induction schemas generalizing table with
  | nil => simp
  | cons schema rest ih =>
    rw [List.foldl_cons, ih, get?_erase]
    by_cases hrest : dest ∈ rest.map Schema.dest
    · simp [hrest]
    · by_cases hdest : dest = schema.dest
      · simp [hdest]
      · simp [hrest, hdest]

theorem Keyed.foldl_erase {entries : Table Entry} (h : entries.Keyed) (schemas : List Schema) :
    (schemas.foldl (fun t schema => t.erase schema.dest) entries).Keyed := by
  intro dest entry hget
  rw [get?_foldl_erase] at hget
  split at hget
  · cases hget
  · exact h dest entry hget

end Table

namespace Registry

variable {r : Registry}

/-- Every option is kept where it belongs. -/
def Keyed (r : Registry) : Prop :=
  ∀ dest group entry, r.entryAt? dest group = some entry → entry.Belongs dest

theorem keyed_empty : ({} : Registry).Keyed := by
  intro dest group entry hentry
  obtain ⟨entries, hentries, hget⟩ := exists_entries?_of_entryAt? hentry
  cases group with
  | none =>
    cases hentries
    cases hget
  | some name => cases hentries

theorem Keyed.setEntries (h : r.Keyed) {group : Option String} {old new : Table Entry}
    (hold : r.entries? group = .ok old) (hnew : new.Keyed) : (r.setEntries group new).Keyed := by
  intro dest other entry hentry
  rw [entryAt?_setEntries hold] at hentry
  split at hentry
  · exact hnew dest entry hentry
  · exact h dest other entry hentry

theorem Keyed.of_entries? (h : r.Keyed) {group : Option String} {entries : Table Entry}
    (hentries : r.entries? group = .ok entries) : entries.Keyed := by
  intro dest entry hget
  rw [← entryAt?_of_entries?_ok hentries] at hget
  exact h dest group entry hget

theorem Keyed.prepared (h : r.Keyed) (target : Option Group) : (r.prepared target).Keyed := by
  intro dest group entry hentry
  rw [entryAt?_prepared] at hentry
  exact h dest group entry hentry

theorem Keyed.registerAt (h : r.Keyed) (schema : Schema) (target : Option Group) :
    (r.registerAt schema target).2.Keyed := by
  have hending := registers_registerAt r schema target
  generalize r.registerAt schema target = result at hending ⊢
  cases hending with
  | reserved hname => exact h
  | known hname hentry hsame => exact h
  | duplicate hname hentry hother => exact h
  | added hname hfree hentries =>
    have hprepared := h.prepared target
    exact hprepared.setEntries hentries ((hprepared.of_entries? hentries).insert ⟨rfl, hname⟩)

theorem Keyed.unregister (h : r.Keyed) (schemas : List Schema) (group : Option String) :
    (r.unregister schemas group).2.Keyed := by
  obtain ⟨e, -, hcase⟩ | ⟨entries, hentries, hcase⟩ := unregister_cases r schemas group
  · rw [hcase]
    exact h
  · rw [hcase]
    exact h.setEntries hentries ((h.of_entries? hentries).foldl_erase schemas)

theorem Keyed.modify (h : r.Keyed) (dest : String) (group : Option String) {f : Entry → Entry}
    (hf : ∀ entry, (f entry).schema = entry.schema) : (r.modify dest group f).2.Keyed := by
  obtain ⟨e, -, hcase⟩ | ⟨entries, entry, hentries, hentry, hcase⟩ := modify_cases r dest group f
  · rw [hcase]
    exact h
  · rw [hcase]
    have hbelongs := (h dest group entry hentry).of_schema_eq (hf entry)
    exact h.setEntries hentries ((h.of_entries? hentries).insert hbelongs)

theorem Keyed.reset (h : r.Keyed) : r.reset.Keyed := by
  intro dest group entry hentry
  rw [entryAt?_reset, Option.map_eq_some_iff] at hentry
  obtain ⟨old, hold, rfl⟩ := hentry
  exact (h dest group old hold).of_schema_eq rfl

theorem Keyed.parse (h : r.Keyed) (host : Host) (files : List String) (validating : Bool) :
    (r.parse host files validating).2.Keyed := by
  obtain ⟨e, hcase⟩ | ⟨snapshot, -, -, hcase⟩ := parse_cases r host files validating
  · rw [hcase]
    exact h
  · rw [hcase]
    exact h

theorem invariant_keyed : Invariant Keyed where
  linked := {
    refl := fun _ h => h
    trans := fun hrs hst h => hst (hrs h)
    ensure := fun _ group h => h.prepared (some group)
    registerAt := fun _ schema target h => h.registerAt schema target
    unregister := fun _ schemas group h => h.unregister schemas group
    modify := fun _ dest group _ hf h => h.modify dest group hf }
  clear := fun h => h
  reset := fun h => h.reset
  parse := fun h => h.parse _ _ _

end Registry

namespace Config

/-- In every registry that a run leads to, every option is kept where it belongs. -/
theorem keyed_after (history : List Step) : (after history).registry.Keyed :=
  Registry.invariant_keyed.after Registry.keyed_empty history

end Config

end LayeredConfig
