import LayeredConfig.Proofs.Lookup

/-!
# What a change can do

Registering an option by the name of its group and in a group given as a whole
are one operation, `Registry.registerAt`, on a group that is created as given if
it is not there. `Registers` lists its four endings with everything that is then
true; removing options and changing what is known of one have two endings each.
-/

namespace LayeredConfig.Registry

variable {r : Registry}

/-- Make sure that the group that an option is registered in, if any, is there. -/
def prepared (r : Registry) : Option Group → Registry
  | none => r
  | some group => r.ensure group

/-- Register an option in a group, which is created as given if needed, or outside all groups. -/
def registerAt (r : Registry) (schema : Schema) (target : Option Group) :
    Except ConfigError Bool × Registry :=
  if schema.isReserved then (.error (.illegalName schema.name), r)
  else (r.prepared target).add schema (target.map Group.name)

@[simp] theorem map_name_ofName (group : Option String) :
    (group.map Group.ofName).map Group.name = group := by
  cases group with
  | none => rfl
  | some name => rfl

theorem register_eq_registerAt (r : Registry) (schema : Schema) (group : Option String) :
    r.register schema group = r.registerAt schema (group.map Group.ofName) := by
  cases group with
  | none => rfl
  | some name => rfl

theorem registerIn_eq_registerAt (r : Registry) (schema : Schema) (group : Group) :
    r.registerIn schema group = r.registerAt schema (some group) := rfl

@[simp] theorem entryAt?_prepared (r : Registry) (target : Option Group) (dest : String)
    (group : Option String) : (r.prepared target).entryAt? dest group = r.entryAt? dest group := by
  cases target with
  | none => rfl
  | some target => exact entryAt?_ensure r target dest group

theorem prepared_of_entries?_ok {target : Option Group} {entries : Table Entry}
    (h : r.entries? (target.map Group.name) = .ok entries) : r.prepared target = r := by
  cases target with
  | none => rfl
  | some group => exact ensure_of_entries?_ok h

theorem exists_entries?_prepared (r : Registry) (target : Option Group) :
    ∃ entries, (r.prepared target).entries? (target.map Group.name) = .ok entries := by
  cases hentries : r.entries? (target.map Group.name) with
  | ok entries =>
    rw [prepared_of_entries?_ok hentries]
    exact ⟨entries, hentries⟩
  | error e =>
    cases target with
    | none => cases hentries
    | some group =>
      refine ⟨Table.empty, ?_⟩
      rw [prepared, Option.map_some, entries?_ensure_of_error hentries, if_pos rfl]

/-- How registering an option ends, and with which registry. -/
inductive Registers (r : Registry) (schema : Schema) (target : Option Group) :
    Except ConfigError Bool × Registry → Prop
  | reserved (hname : schema.isReserved = true) :
      Registers r schema target (.error (.illegalName schema.name), r)
  | known {entry : Entry} (hname : schema.isReserved = false)
      (hentry : r.entryAt? schema.dest (target.map Group.name) = some entry)
      (hsame : (entry.schema == schema) = true) :
      Registers r schema target (.ok false, r)
  | duplicate {entry : Entry} (hname : schema.isReserved = false)
      (hentry : r.entryAt? schema.dest (target.map Group.name) = some entry)
      (hother : (entry.schema == schema) = false) :
      Registers r schema target (.error (.duplicateOption schema.name), r)
  | added {entries : Table Entry} (hname : schema.isReserved = false)
      (hfree : r.entryAt? schema.dest (target.map Group.name) = none)
      (hentries : (r.prepared target).entries? (target.map Group.name) = .ok entries) :
      Registers r schema target (.ok true, (r.prepared target).setEntries (target.map Group.name)
        (entries.insert schema.dest { schema }))

theorem registers_registerAt (r : Registry) (schema : Schema) (target : Option Group) :
    Registers r schema target (r.registerAt schema target) := by
  rw [registerAt]
  cases hname : schema.isReserved with
  | true => exact .reserved hname
  | false =>
    obtain ⟨entries, hentries⟩ := exists_entries?_prepared r target
    have hat := entryAt?_of_entries?_ok hentries schema.dest
    rw [entryAt?_prepared] at hat
    simp only [add, hentries, Bool.false_eq_true, if_false]
    cases hknown : entries.get? schema.dest with
    | none => exact .added hname (hat.trans hknown) hentries
    | some entry =>
      have hentry := hat.trans hknown
      obtain ⟨old, hold, -⟩ := exists_entries?_of_entryAt? hentry
      rw [prepared_of_entries?_ok hold]
      cases hsame : entry.schema == schema with
      | true =>
        simp only [hsame, if_true]
        exact .known hname hentry hsame
      | false =>
        simp only [hsame, Bool.false_eq_true, if_false]
        exact .duplicate hname hentry hsame

/-- A registration that fails leaves the registry as it was; no group is created for it. -/
theorem registerAt_error {schema : Schema} {target : Option Group} {e : ConfigError}
    (h : (r.registerAt schema target).1 = .error e) : (r.registerAt schema target).2 = r := by
  have hending := registers_registerAt r schema target
  generalize r.registerAt schema target = result at h hending
  cases hending with
  | reserved hname => rfl
  | known hname hentry hsame => rfl
  | duplicate hname hentry hother => rfl
  | added hname hfree hentries => cases h

theorem register_error {schema : Schema} {group : Option String} {e : ConfigError}
    (h : (r.register schema group).1 = .error e) : (r.register schema group).2 = r := by
  rw [register_eq_registerAt] at h ⊢
  exact registerAt_error h

theorem registerIn_error {schema : Schema} {group : Group} {e : ConfigError}
    (h : (r.registerIn schema group).1 = .error e) : (r.registerIn schema group).2 = r := by
  rw [registerIn_eq_registerAt] at h ⊢
  exact registerAt_error h

@[simp] theorem registerMany_nil (r : Registry) (group : Option String) :
    r.registerMany group [] = (.ok (), r) := rfl

theorem registerMany_cons_of_ok {schema : Schema} {group : Option String} {isNew : Bool}
    (h : (r.register schema group).1 = .ok isNew) (rest : List Schema) :
    r.registerMany group (schema :: rest) =
      (r.register schema group).2.registerMany group rest := by
  rw [registerMany]
  generalize r.register schema group = result at h ⊢
  obtain ⟨answer, r'⟩ := result
  cases h
  rfl

theorem registerMany_cons_of_error {schema : Schema} {group : Option String} {e : ConfigError}
    (h : (r.register schema group).1 = .error e) (rest : List Schema) :
    r.registerMany group (schema :: rest) = (.error e, r) := by
  have hsame := register_error h
  rw [registerMany]
  generalize r.register schema group = result at h hsame ⊢
  obtain ⟨answer, r'⟩ := result
  cases h
  cases hsame
  rfl

/-- Registering several options fails at one of them, and the registry is then the one that
registering those before it makes. -/
theorem registerMany_error {group : Option String} {schemas : List Schema} {e : ConfigError}
    (h : (r.registerMany group schemas).1 = .error e) :
    ∃ before schema rest, schemas = before ++ schema :: rest ∧
      (r.registerMany group before).1 = .ok () ∧
      ((r.registerMany group before).2.register schema group).1 = .error e ∧
      (r.registerMany group schemas).2 = (r.registerMany group before).2 := by
  induction schemas generalizing r with
  | nil => cases h
  | cons schema rest ih =>
    cases hfirst : (r.register schema group).1 with
    | error e' =>
      rw [registerMany_cons_of_error hfirst] at h ⊢
      cases h
      exact ⟨[], schema, rest, rfl, rfl, hfirst, rfl⟩
    | ok isNew =>
      rw [registerMany_cons_of_ok hfirst] at h ⊢
      obtain ⟨before, failing, rest', rfl, hbefore, hfailing, hafter⟩ := ih h
      refine ⟨schema :: before, failing, rest', rfl, ?_, ?_, ?_⟩
      · rw [registerMany_cons_of_ok hfirst]
        exact hbefore
      · rw [registerMany_cons_of_ok hfirst]
        exact hfailing
      · rw [registerMany_cons_of_ok hfirst]
        exact hafter

theorem unregister_cases (r : Registry) (schemas : List Schema) (group : Option String) :
    (∃ e, r.entries? group = .error e ∧ r.unregister schemas group = (.error e, r)) ∨
      ∃ entries, r.entries? group = .ok entries ∧
        r.unregister schemas group = (.ok (), r.setEntries group
          (schemas.foldl (fun t schema => t.erase schema.dest) entries)) := by
  rw [unregister]
  cases hentries : r.entries? group with
  | error e => exact .inl ⟨e, rfl, rfl⟩
  | ok entries => exact .inr ⟨entries, rfl, rfl⟩

theorem modify_cases (r : Registry) (dest : String) (group : Option String)
    (f : Entry → Entry) :
    (∃ e, r.entryAt? dest group = none ∧ r.modify dest group f = (.error e, r)) ∨
      ∃ entries entry, r.entries? group = .ok entries ∧ r.entryAt? dest group = some entry ∧
        r.modify dest group f = (.ok (), r.setEntries group (entries.insert dest (f entry))) := by
  rw [modify]
  cases hentries : r.entries? group with
  | error e => exact .inl ⟨e, entryAt?_of_entries?_error hentries dest, rfl⟩
  | ok entries =>
    have hat := entryAt?_of_entries?_ok hentries dest
    cases hentry : entries.get? dest with
    | none => exact .inl ⟨.noSuchOption dest group, hat.trans hentry, by simp only [hentry]⟩
    | some entry =>
      exact .inr ⟨entries, entry, rfl, hat.trans hentry, by simp only [hentry]⟩

theorem unregister_error {schemas : List Schema} {group : Option String} {e : ConfigError}
    (h : (r.unregister schemas group).1 = .error e) : (r.unregister schemas group).2 = r := by
  obtain ⟨e', -, hcase⟩ | ⟨entries, -, hcase⟩ := unregister_cases r schemas group
  · rw [hcase]
  · rw [hcase] at h
    cases h

theorem modify_error {dest : String} {group : Option String} {f : Entry → Entry}
    {e : ConfigError} (h : (r.modify dest group f).1 = .error e) :
    (r.modify dest group f).2 = r := by
  obtain ⟨e', -, hcase⟩ | ⟨entries, entry, -, -, hcase⟩ := modify_cases r dest group f
  · rw [hcase]
  · rw [hcase] at h
    cases h

end LayeredConfig.Registry
