import LayeredConfig.Proofs.Installed
import LayeredConfig.Proofs.Keyed

/-!
# What changes do, seen from outside

A registry shows itself in three ways: in what is known at each place
(`entryAt?`), in the groups that there are, with their titles and helps
(`groupAt?`), and in the files and the mode in force (`installed`). There is
nothing else to it: two registries that agree in all three are equal
(`Registry.ext_views`).

Every elementary change is given here by one equation for each view. A change
of an option touches its own place and no other; a registration creates the
group of its place, if it is not there and the option has a name for callers;
nothing else creates a group, and nothing at all takes one away or renames it.
-/

namespace LayeredConfig.Registry

variable {r s : Registry}

/-- The group of a name, if there is one. -/
def groupAt? (r : Registry) (name : String) : Option Group :=
  (r.groups.get? name).map Member.group

theorem contains_groups (r : Registry) (name : String) :
    r.groups.contains name = (r.groupAt? name).isSome := by
  rw [Table.contains, groupAt?, Option.isSome_map]

theorem mem_keys_groups {name : String} :
    name ∈ r.groups.keys ↔ (r.groupAt? name).isSome = true := by
  rw [← contains_groups]
  exact Table.contains_iff_mem_keys.symm

section Extensionality

theorem entries?_congr (hentry : ∀ dest group, r.entryAt? dest group = s.entryAt? dest group)
    (hgroups : ∀ name, r.groups.contains name = s.groups.contains name) (group : Option String) :
    r.entries? group = s.entries? group := by
  cases hr : r.entries? group with
  | ok entries =>
    cases hs : s.entries? group with
    | ok entries' =>
      have hentries : entries = entries' := by
        refine Table.ext_get? fun dest => ?_
        rw [← entryAt?_of_entries?_ok hr, hentry, entryAt?_of_entries?_ok hs]
      rw [hentries]
    | error e =>
      cases group with
      | none => cases hs
      | some name =>
        obtain ⟨m, hm, -⟩ := entries?_some_eq_ok_iff.1 hr
        obtain ⟨hnone, -⟩ := entries?_some_eq_error_iff.1 hs
        have hname := hgroups name
        simp [Table.contains, hm, hnone] at hname
  | error e =>
    cases group with
    | none => cases hr
    | some name =>
      obtain ⟨hnone, rfl⟩ := entries?_some_eq_error_iff.1 hr
      have hname := hgroups name
      rw [Table.contains, hnone, Table.contains] at hname
      have hnone' : s.groups.get? name = none := by
        cases hget : s.groups.get? name with
        | none => rfl
        | some m =>
          rw [hget] at hname
          cases hname
      exact (entries?_some_eq_error_iff.2 ⟨hnone', rfl⟩).symm

/-- A registry is what is known at its places, its groups, and what is in force. -/
theorem ext_views (hentry : ∀ dest group, r.entryAt? dest group = s.entryAt? dest group)
    (hgroup : ∀ name, r.groupAt? name = s.groupAt? name)
    (hinstalled : r.installed = s.installed) : r = s := by
  have hcontains : ∀ name, r.groups.contains name = s.groups.contains name := by
    intro name
    rw [contains_groups, hgroup, contains_groups]
  have htop : r.top = s.top := Except.ok.inj (entries?_congr hentry hcontains none)
  have hgroups : r.groups = s.groups := by
    refine Table.ext_get? fun name => ?_
    have hname := hgroup name
    have htables := entries?_congr hentry hcontains (some name)
    rw [groupAt?, groupAt?] at hname
    rw [entries?, entries?] at htables
    cases hr : r.groups.get? name with
    | none =>
      cases hs : s.groups.get? name with
      | none => rfl
      | some m' => simp [hr, hs] at hname
    | some m =>
      cases hs : s.groups.get? name with
      | none => simp [hr, hs] at hname
      | some m' =>
        obtain ⟨group, entries⟩ := m
        obtain ⟨group', entries'⟩ := m'
        simp only [hr, hs, Option.map_some, Option.some.injEq] at hname
        simp only [hr, hs, Except.ok.injEq] at htables
        rw [hname, htables]
  obtain ⟨hsnapshot, hmode⟩ := Prod.mk.inj hinstalled
  cases r
  cases s
  simp only at htop hgroups hsnapshot hmode
  rw [htop, hgroups, hsnapshot, hmode]

end Extensionality

section Groups

@[simp] theorem groupAt?_setEntries (r : Registry) (group : Option String)
    (entries : Table Entry) (name : String) :
    (r.setEntries group entries).groupAt? name = r.groupAt? name := by
  cases group with
  | none => rfl
  | some other =>
    rw [setEntries]
    cases hm : r.groups.get? other with
    | none => rfl
    | some m =>
      simp only [groupAt?, Table.get?_insert]
      by_cases hname : name = other
      · simp [hname, hm]
      · simp [hname]

theorem groupAt?_ensure (r : Registry) (group : Group) (name : String) :
    (r.ensure group).groupAt? name =
      (r.groupAt? name).or (if name = group.name then some group else none) := by
  rw [ensure]
  cases hcontains : r.groups.contains group.name with
  | true =>
    rw [if_pos rfl]
    by_cases hname : name = group.name
    · subst hname
      rw [contains_groups] at hcontains
      rw [Option.or_of_isSome hcontains]
    · simp [hname]
  | false =>
    rw [if_neg Bool.false_ne_true, groupAt?, Table.get?_insert]
    by_cases hname : name = group.name
    · subst hname
      rw [contains_groups, Option.isSome_eq_false_iff, Option.isNone_iff_eq_none] at hcontains
      simp [hcontains]
    · simp [hname, groupAt?]

/-- A registration creates the group of its place, unless the name of the option is refused. -/
theorem groupAt?_registerAt (r : Registry) (schema : Schema) (target : Option Group)
    (name : String) :
    (r.registerAt schema target).2.groupAt? name =
      if schema.isReserved then r.groupAt? name else (r.prepared target).groupAt? name := by
  have hending := registers_registerAt r schema target
  generalize r.registerAt schema target = result at hending ⊢
  cases hending with
  | reserved hname => rw [if_pos hname]
  | known hname hentry hsame =>
    obtain ⟨entries, hentries, -⟩ := exists_entries?_of_entryAt? hentry
    rw [hname, if_neg Bool.false_ne_true, prepared_of_entries?_ok hentries]
  | duplicate hname hentry hother =>
    obtain ⟨entries, hentries, -⟩ := exists_entries?_of_entryAt? hentry
    rw [hname, if_neg Bool.false_ne_true, prepared_of_entries?_ok hentries]
  | added hname hfree hentries =>
    rw [hname, if_neg Bool.false_ne_true, groupAt?_setEntries]

@[simp] theorem groupAt?_unregister (r : Registry) (schemas : List Schema)
    (group : Option String) (name : String) :
    (r.unregister schemas group).2.groupAt? name = r.groupAt? name := by
  obtain ⟨e, -, hcase⟩ | ⟨entries, -, hcase⟩ := unregister_cases r schemas group
  · rw [hcase]
  · rw [hcase, groupAt?_setEntries]

@[simp] theorem groupAt?_modify (r : Registry) (dest : String) (group : Option String)
    (f : Entry → Entry) (name : String) :
    (r.modify dest group f).2.groupAt? name = r.groupAt? name := by
  obtain ⟨e, -, hcase⟩ | ⟨entries, entry, -, -, hcase⟩ := modify_cases r dest group f
  · rw [hcase]
  · rw [hcase, groupAt?_setEntries]

@[simp] theorem groupAt?_clear (r : Registry) (name : String) :
    r.clear.groupAt? name = r.groupAt? name := rfl

@[simp] theorem groupAt?_reset (r : Registry) (name : String) :
    r.reset.groupAt? name = r.groupAt? name := by
  simp only [groupAt?, reset, clear, Table.get?_map, Option.map_map]
  rfl

@[simp] theorem groupAt?_parse (r : Registry) (host : Host) (files : List String)
    (validating : Bool) (name : String) :
    (r.parse host files validating).2.groupAt? name = r.groupAt? name := by
  obtain ⟨e, hcase⟩ | ⟨snapshot, -, -, hcase⟩ := parse_cases r host files validating
  · rw [hcase]
  · rw [hcase]
    rfl

end Groups

section Places

theorem answer_registerAt (r : Registry) (schema : Schema) (target : Option Group) :
    (r.registerAt schema target).1 =
      if schema.isReserved then .error (.illegalName schema.name)
      else match r.entryAt? schema.dest (target.map Group.name) with
        | none => .ok true
        | some entry =>
          if entry.schema == schema then .ok false else .error (.duplicateOption schema.name) := by
  have hending := registers_registerAt r schema target
  generalize r.registerAt schema target = result at hending ⊢
  cases hending with
  | reserved hname => simp [hname]
  | known hname hentry hsame => simp [hname, hentry, hsame]
  | duplicate hname hentry hother => simp [hname, hentry, hother]
  | added hname hfree hentries => simp [hname, hfree]

/-- A registration leaves its option at its own place, unless one is there or the name is refused,
and leaves every other place alone. -/
theorem entryAt?_registerAt (r : Registry) (schema : Schema) (target : Option Group)
    (dest : String) (group : Option String) :
    (r.registerAt schema target).2.entryAt? dest group =
      if schema.isReserved = false ∧ dest = schema.dest ∧ group = target.map Group.name then
        some ((r.entryAt? dest group).getD { schema })
      else r.entryAt? dest group := by
  have hending := registers_registerAt r schema target
  generalize r.registerAt schema target = result at hending ⊢
  cases hending with
  | reserved hname => simp [hname]
  | known hname hentry hsame =>
    split
    · next hplace =>
      obtain ⟨-, rfl, rfl⟩ := hplace
      rw [hentry, Option.getD_some]
    · rfl
  | duplicate hname hentry hother =>
    split
    · next hplace =>
      obtain ⟨-, rfl, rfl⟩ := hplace
      rw [hentry, Option.getD_some]
    · rfl
  | added hname hfree hentries =>
    rw [entryAt?_setEntries hentries]
    by_cases hgroup : group = target.map Group.name
    · subst hgroup
      rw [if_pos rfl, Table.get?_insert, ← entryAt?_of_entries?_ok hentries, entryAt?_prepared]
      by_cases hdest : dest = schema.dest
      · subst hdest
        simp [hname, hfree]
      · simp [hdest]
    · simp [hgroup]

theorem entryAt?_unregister (r : Registry) (schemas : List Schema) (group : Option String)
    (dest : String) (other : Option String) :
    (r.unregister schemas group).2.entryAt? dest other =
      if other = group ∧ dest ∈ schemas.map Schema.dest then none else r.entryAt? dest other := by
  obtain ⟨e, herror, hcase⟩ | ⟨entries, hentries, hcase⟩ := unregister_cases r schemas group
  · rw [hcase]
    split
    · next hplace =>
      obtain ⟨rfl, -⟩ := hplace
      exact entryAt?_of_entries?_error herror dest
    · rfl
  · rw [hcase, entryAt?_setEntries hentries]
    by_cases hother : other = group
    · subst hother
      simp only [true_and, if_true, Table.get?_foldl_erase, ← entryAt?_of_entries?_ok hentries]
    · simp [hother]

theorem entryAt?_modify (r : Registry) (dest : String) (group : Option String)
    (f : Entry → Entry) (other : String) (otherGroup : Option String) :
    (r.modify dest group f).2.entryAt? other otherGroup =
      if other = dest ∧ otherGroup = group then (r.entryAt? other otherGroup).map f
      else r.entryAt? other otherGroup := by
  obtain ⟨e, hfree, hcase⟩ | ⟨entries, entry, hentries, hentry, hcase⟩ :=
    modify_cases r dest group f
  · rw [hcase]
    split
    · next hplace =>
      obtain ⟨rfl, rfl⟩ := hplace
      rw [hfree]
      rfl
    · rfl
  · rw [hcase, entryAt?_setEntries hentries]
    by_cases hgroup : otherGroup = group
    · subst hgroup
      rw [if_pos rfl, Table.get?_insert, ← entryAt?_of_entries?_ok hentries]
      by_cases hdest : other = dest
      · subst hdest
        simp [hentry]
      · simp [hdest]
    · simp [hgroup]

@[simp] theorem entryAt?_clear (r : Registry) (dest : String) (group : Option String) :
    r.clear.entryAt? dest group = r.entryAt? dest group := by
  cases group with
  | none => rfl
  | some name => rfl

end Places

end LayeredConfig.Registry
