import LayeredConfig.Proofs.Effects

/-!
# Groups stay

A group comes into being with a change that asks for it (`Change.group?`): given
as a whole, with its title and help, and given by its name alone, with those that
go with the name. From then on no operation takes it away or alters it, not even
one that removes all its options.

Both halves are told step by step. `Registry.GroupsStay` is a link between
registries, so that every operation and every run preserves it;
`Registry.Creates` bounds what a single operation may add.
-/

namespace LayeredConfig

/-- The group that a change asks for, as it is created if it is not there. -/
def Change.group? : Change → Option Group
  | .register _ group | .registerMany _ group => group.map Group.ofName
  | .registerIn _ group | .registerManyIn _ group | .registerGroup group => some group
  | _ => none

namespace Registry

variable {r s t : Registry} {name : String} {group : Group} {target : Option Group}

theorem ensure_of_groupAt? {given : Group} (h : (r.groupAt? given.name).isSome = true) :
    r.ensure given = r := by
  rw [ensure, if_pos]
  rw [contains_groups, h]

theorem isSome_groupAt?_ensure (r : Registry) (given : Group) :
    ((r.ensure given).groupAt? given.name).isSome = true := by
  rw [groupAt?_ensure, if_pos rfl, Option.isSome_or, Option.isSome_some, Bool.or_true]

section Permanence

/-- The groups of one registry are groups of another, with the same titles and helps. -/
def GroupsStay (r s : Registry) : Prop :=
  ∀ name group, r.groupAt? name = some group → s.groupAt? name = some group

theorem GroupsStay.refl (r : Registry) : r.GroupsStay r :=
  fun _ _ hgroup => hgroup

theorem GroupsStay.isSome (h : r.GroupsStay s) (hr : (r.groupAt? name).isSome = true) :
    (s.groupAt? name).isSome = true := by
  obtain ⟨group, hgroup⟩ := Option.isSome_iff_exists.1 hr
  rw [h name group hgroup]
  rfl

theorem GroupsStay.trans (hrs : r.GroupsStay s) (hst : s.GroupsStay t) : r.GroupsStay t :=
  fun name group hgroup => hst name group (hrs name group hgroup)

theorem groupsStay_of_groupAt?_eq (h : ∀ name, s.groupAt? name = r.groupAt? name) :
    r.GroupsStay s := by
  intro name group hgroup
  rw [h, hgroup]

theorem groupsStay_ensure (r : Registry) (given : Group) : r.GroupsStay (r.ensure given) := by
  intro name group hgroup
  rw [groupAt?_ensure, hgroup, Option.some_or]

theorem groupsStay_registerAt (r : Registry) (schema : Schema) (target : Option Group) :
    r.GroupsStay (r.registerAt schema target).2 := by
  intro name group hgroup
  rw [groupAt?_registerAt]
  split
  · exact hgroup
  · cases target with
    | none => exact hgroup
    | some given => exact groupsStay_ensure r given name group hgroup

theorem linked_groupsStay : Linked GroupsStay where
  refl := GroupsStay.refl
  trans := GroupsStay.trans
  ensure := groupsStay_ensure
  registerAt := groupsStay_registerAt
  unregister := fun r schemas group =>
    groupsStay_of_groupAt?_eq (groupAt?_unregister r schemas group)
  modify := fun r dest group f _ => groupsStay_of_groupAt?_eq (groupAt?_modify r dest group f)

theorem invariant_groupsStay (r : Registry) : Invariant (GroupsStay r) where
  linked := linked_groupsStay.carries fun hst hrs => hrs.trans hst
  clear := fun hrs => hrs
  reset := fun {s} hrs => hrs.trans (groupsStay_of_groupAt?_eq (groupAt?_reset s))
  parse := fun {s host files validating} hrs =>
    hrs.trans (groupsStay_of_groupAt?_eq (groupAt?_parse s host files validating))

theorem groupsStay_run (r : Registry) (steps : List Step) : r.GroupsStay (r.run steps).2 :=
  (invariant_groupsStay r).run (GroupsStay.refl r) steps

end Permanence

section Creation

/-- Every group of a registry was there before or is the one that was asked for. -/
def Creates (r : Registry) (target : Option Group) (s : Registry) : Prop :=
  ∀ name group, s.groupAt? name = some group →
    r.groupAt? name = some group ∨ (target = some group ∧ group.name = name)

theorem Creates.refl (r : Registry) (target : Option Group) : r.Creates target r :=
  fun _ _ hgroup => .inl hgroup

theorem creates_of_groupAt?_eq (h : ∀ name, s.groupAt? name = r.groupAt? name) :
    r.Creates target s :=
  fun name _ hgroup => .inl ((h name).symm.trans hgroup)

theorem Creates.trans (hrs : r.Creates target s) (hst : s.Creates target t) :
    r.Creates target t := by
  intro name group hgroup
  obtain hold | hnew := hst name group hgroup
  · exact hrs name group hold
  · exact .inr hnew

theorem creates_ensure (r : Registry) (given : Group) :
    r.Creates (some given) (r.ensure given) := by
  intro name group hgroup
  rw [groupAt?_ensure, Option.or_eq_some_iff] at hgroup
  obtain hold | ⟨-, hnew⟩ := hgroup
  · exact .inl hold
  · obtain ⟨hname, hsome⟩ := Option.ite_none_right_eq_some.1 hnew
    cases hsome
    exact .inr ⟨rfl, hname.symm⟩

theorem creates_prepared (r : Registry) (target : Option Group) :
    r.Creates target (r.prepared target) := by
  cases target with
  | none => exact Creates.refl r none
  | some given => exact creates_ensure r given

theorem creates_registerAt (r : Registry) (schema : Schema) (target : Option Group) :
    r.Creates target (r.registerAt schema target).2 := by
  intro name group hgroup
  rw [groupAt?_registerAt] at hgroup
  split at hgroup
  · exact .inl hgroup
  · exact creates_prepared r target name group hgroup

theorem creates_registerMany (r : Registry) (schemas : List Schema) (place : Option String) :
    r.Creates (place.map Group.ofName) (r.registerMany place schemas).2 := by
  induction schemas generalizing r with
  | nil => exact Creates.refl r _
  | cons schema rest ih =>
    cases hfirst : (r.register schema place).1 with
    | error e =>
      rw [registerMany_cons_of_error hfirst]
      exact Creates.refl r _
    | ok isNew =>
      rw [registerMany_cons_of_ok hfirst, register_eq_registerAt]
      exact (creates_registerAt r schema (place.map Group.ofName)).trans (ih _)

theorem creates_registerManyIn (r : Registry) (schemas : List Schema) (given : Group) :
    r.Creates (some given) (r.registerManyIn given schemas).2 := by
  intro name group hgroup
  -- A group that is there before the first option stays as it is. Any other would be one that an
  -- option creates, and that has the name of the given group, which is there.
  cases hensured : (r.ensure given).groupAt? name with
  | some known =>
    have hstays := linked_groupsStay.registerMany (r.ensure given) schemas (some given.name)
      name known hensured
    cases hstays.symm.trans hgroup
    exact creates_ensure r given name group hensured
  | none =>
    obtain hold | ⟨hcreated, hname⟩ :=
      creates_registerMany (r.ensure given) schemas (some given.name) name group hgroup
    · cases hensured.symm.trans hold
    · cases hcreated
      have hthere : ((r.ensure given).groupAt? name).isSome = true :=
        hname ▸ isSome_groupAt?_ensure r given
      rw [hensured] at hthere
      cases hthere

theorem creates_apply (r : Registry) (change : Change) :
    r.Creates change.group? (r.apply change).2 := by
  cases change with
  | register schema place =>
    show r.Creates _ (r.register schema place).2
    rw [register_eq_registerAt]
    exact creates_registerAt r schema (place.map Group.ofName)
  | registerIn schema given => exact creates_registerAt r schema (some given)
  | registerMany schemas place => exact creates_registerMany r schemas place
  | registerManyIn schemas given => exact creates_registerManyIn r schemas given
  | registerGroup given => exact creates_ensure r given
  | unregister schemas place =>
    exact creates_of_groupAt?_eq (groupAt?_unregister r schemas place)
  | setDefault dest value place => exact creates_of_groupAt?_eq (groupAt?_modify r dest place _)
  | clearDefault dest place => exact creates_of_groupAt?_eq (groupAt?_modify r dest place _)
  | lock dest value place => exact creates_of_groupAt?_eq (groupAt?_modify r dest place _)
  | unlock dest place => exact creates_of_groupAt?_eq (groupAt?_modify r dest place _)
  | clear => exact creates_of_groupAt?_eq (groupAt?_clear r)
  | reset => exact creates_of_groupAt?_eq (groupAt?_reset r)

/-- An operation creates no group, unless it is a change that asks for it. -/
theorem exists_change_of_perform {host : Host} {operation : Operation}
    (hfree : r.groupAt? name = none)
    (hgroup : (r.perform host operation).2.groupAt? name = some group) :
    ∃ change, operation = .change change ∧ change.group? = some group ∧ group.name = name := by
  have hsame : ∀ s : Registry, (∀ name, s.groupAt? name = r.groupAt? name) →
      s.groupAt? name ≠ some group := by
    intro s hs hsome
    rw [hs, hfree] at hsome
    cases hsome
  cases operation with
  | change change =>
    obtain hold | ⟨hasked, hname⟩ := creates_apply r change name group hgroup
    · cases hfree.symm.trans hold
    · exact ⟨change, rfl, hasked, hname⟩
  | read query => cases hfree.symm.trans hgroup
  | dump level => cases hfree.symm.trans hgroup
  | parse files validating => exact absurd hgroup (hsame _ (groupAt?_parse r host files validating))
  | reload files =>
    refine absurd hgroup (hsame (r.reload host files).2 fun name => ?_)
    rw [reload_registry, groupAt?_parse]
  | reloadFiles =>
    refine absurd hgroup (hsame (r.reload host r.files).2 fun name => ?_)
    rw [reload_registry, groupAt?_parse]

/-- A group that is there after a run and was not before comes with one operation of the run: a
change that asks for this very group. -/
theorem exists_creation {steps : List Step} (hfree : r.groupAt? name = none)
    (hgroup : (r.run steps).2.groupAt? name = some group) :
    ∃ before step rest change, steps = before ++ step :: rest ∧
      step.operation = .change change ∧ (r.run before).2.groupAt? name = none ∧
      (r.run (before ++ [step])).2.groupAt? name = some group ∧
      change.group? = some group ∧ group.name = name := by
  induction steps generalizing r with
  | nil => cases hfree.symm.trans hgroup
  | cons step rest ih =>
    cases hnext : (r.perform step.host step.operation).2.groupAt? name with
    | none =>
      obtain ⟨before, creating, rest, change, rfl, hchange, hbefore, hcreated, hasked, hname⟩ :=
        ih hnext hgroup
      exact ⟨step :: before, creating, rest, change, rfl, hchange, hbefore, hcreated, hasked,
        hname⟩
    | some created =>
      -- What the operation has created is what is there at the end.
      cases (groupsStay_run _ rest name created hnext).symm.trans hgroup
      obtain ⟨change, hchange, hasked, hname⟩ := exists_change_of_perform hfree hnext
      exact ⟨[], step, rest, change, rfl, hchange, hfree, hnext, hasked, hname⟩

end Creation

end Registry

end LayeredConfig
