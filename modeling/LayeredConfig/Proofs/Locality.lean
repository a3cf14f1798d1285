import LayeredConfig.Proofs.Agreement

/-!
# Changes of single options

A change of a single option is addressed to a place, a group and a dest, and what
is known at that place afterwards depends on what was known there before and on
nothing else (`Change.act`). At every other place it leaves things as they are.
So what is known at a place after a run of such changes is what those addressed
to it make of what was known there, one after the other (`changesAt`), whatever
goes on at other places in between.

Places share their groups. A registration creates the group of its place if it
is not there, and nothing takes a group away, so which groups there are after a
run depends on which registrations it has, and not on their order; the order
decides only which of them gives a group its title and help.
-/

namespace LayeredConfig

namespace Change

/-- The group and the dest that a change of a single option is addressed to. -/
def place? : Change → Option (Option String × String)
  | register schema group => some (group, schema.dest)
  | registerIn schema group => some (some group.name, schema.dest)
  | unregister [schema] group => some (group, schema.dest)
  | setDefault dest _ group => some (group, dest)
  | clearDefault dest group => some (group, dest)
  | lock dest _ group => some (group, dest)
  | unlock dest group => some (group, dest)
  | _ => none

/-- What a change of a single option makes of what is known at its place. -/
def act : Change → Option Entry → Option Entry
  | register schema _, known | registerIn schema _, known =>
    if schema.isReserved then known else some (known.getD { schema })
  | unregister _ _, _ => none
  | setDefault _ value _, known => known.map fun entry => { entry with override := some value }
  | clearDefault _ _, known => known.map fun entry => { entry with override := none }
  | lock _ value _, known => known.map fun entry => { entry with locked := some value }
  | unlock _ _, known => known.map fun entry => { entry with locked := none }
  | _, known => known

/-- The group that the registration of a single option creates if it is not there. -/
def target? : Change → Option Group
  | register schema group => if schema.isReserved then none else group.map Group.ofName
  | registerIn schema group => if schema.isReserved then none else some group
  | _ => none

theorem place?_of_target? {change : Change} {group : Group} (h : change.target? = some group) :
    ∃ dest, change.place? = some (some group.name, dest) := by
  cases change with
  | register schema name =>
    rw [target?] at h
    split at h
    · cases h
    · obtain ⟨name, rfl, rfl⟩ := Option.map_eq_some_iff.1 h
      exact ⟨schema.dest, rfl⟩
  | registerIn schema given =>
    rw [target?] at h
    split at h
    · cases h
    · cases h
      exact ⟨schema.dest, rfl⟩
  | _ => cases h

/-- A change of a single option registers it, removes it, or changes what is known of it. -/
inductive Concerns : Change → Option String → String → Prop
  | registers {change : Change} (schema : Schema) (target : Option Group)
      (hact : change.act = fun known =>
        if schema.isReserved then known else some (known.getD { schema }))
      (htarget : change.target? = if schema.isReserved then none else target)
      (happly : ∀ r : Registry, (r.apply change).2 = (r.registerAt schema target).2) :
      Concerns change (target.map Group.name) schema.dest
  | removes {change : Change} (schema : Schema) (group : Option String)
      (hact : change.act = fun _ => none) (htarget : change.target? = none)
      (happly : ∀ r : Registry, (r.apply change).2 = (r.unregister [schema] group).2) :
      Concerns change group schema.dest
  | sets {change : Change} (dest : String) (group : Option String) (f : Entry → Entry)
      (hact : change.act = Option.map f) (htarget : change.target? = none)
      (happly : ∀ r : Registry, (r.apply change).2 = (r.modify dest group f).2) :
      Concerns change group dest

theorem concerns_of_place? (change : Change) {group : Option String} {dest : String}
    (h : change.place? = some (group, dest)) : change.Concerns group dest := by
  cases change with
  | register schema name =>
    cases h
    have hregisters : Concerns (register schema group) ((group.map Group.ofName).map Group.name)
        schema.dest := by
      refine .registers schema (group.map Group.ofName) rfl rfl fun r => ?_
      rw [← Registry.register_eq_registerAt]
      rfl
    rw [Registry.map_name_ofName] at hregisters
    exact hregisters
  | registerIn schema given =>
    cases h
    exact .registers schema (some given) rfl rfl fun _ => rfl
  | unregister schemas name =>
    match schemas with
    | [schema] =>
      cases h
      exact .removes schema group rfl rfl fun _ => rfl
    | [] => cases h
    | _ :: _ :: _ => cases h
  | setDefault name value _ =>
    cases h
    exact .sets dest group _ rfl rfl fun _ => rfl
  | clearDefault name _ =>
    cases h
    exact .sets dest group _ rfl rfl fun _ => rfl
  | lock name value _ =>
    cases h
    exact .sets dest group _ rfl rfl fun _ => rfl
  | unlock name _ =>
    cases h
    exact .sets dest group _ rfl rfl fun _ => rfl
  | _ => cases h

end Change

namespace Operation

/-- Whether an operation changes a single option, or only reads. -/
def isLocal : Operation → Bool
  | .change c => c.place?.isSome
  | operation => operation.isRead

/-- The change that an operation is, if it is addressed to a place. -/
def changeAt? (place : Option String × String) : Operation → Option Change
  | .change c => if c.place? = some place then some c else none
  | _ => none

theorem changeAt?_eq_some_iff {place : Option String × String} {operation : Operation}
    {change : Change} :
    operation.changeAt? place = some change ↔
      operation = .change change ∧ change.place? = some place := by
  cases operation with
  | change c =>
    rw [changeAt?, Option.ite_none_right_eq_some, Option.some.injEq, Operation.change.injEq]
    constructor
    · rintro ⟨hplace, rfl⟩
      exact ⟨rfl, hplace⟩
    · rintro ⟨rfl, hplace⟩
      exact ⟨hplace, rfl⟩
  | _ => simp [changeAt?]

/-- The group that an operation creates if it is not there. -/
def target? : Operation → Option Group
  | .change c => c.target?
  | _ => none

end Operation

/-- The changes of a run that are addressed to a place. -/
def changesAt (place : Option String × String) (steps : List Step) : List Change :=
  steps.filterMap fun step => step.operation.changeAt? place

/-- The first group of a name that a run would create. -/
def firstTarget? (name : String) (steps : List Step) : Option Group :=
  steps.findSome? fun step => step.operation.target?.filter fun group => group.name = name

theorem isSome_firstTarget?_iff {steps : List Step} {name : String} :
    (firstTarget? name steps).isSome = true ↔
      ∃ dest, ∃ change ∈ changesAt (some name, dest) steps, change.target?.isSome = true := by
  rw [firstTarget?, List.findSome?_isSome_iff]
  constructor
  · rintro ⟨⟨host, operation⟩, hstep, hsome⟩
    obtain ⟨group, hgroup⟩ := Option.isSome_iff_exists.1 hsome
    obtain ⟨htarget, hname⟩ := Option.filter_eq_some_iff.1 hgroup
    cases operation with
    | change change =>
      obtain ⟨dest, hplace⟩ := Change.place?_of_target? htarget
      rw [of_decide_eq_true hname] at hplace
      refine ⟨dest, change, List.mem_filterMap.2 ⟨_, hstep, ?_⟩,
        Option.isSome_of_eq_some htarget⟩
      exact Operation.changeAt?_eq_some_iff.2 ⟨rfl, hplace⟩
    | _ => cases htarget
  · rintro ⟨dest, change, hchange, hsome⟩
    obtain ⟨⟨host, operation⟩, hstep, hat⟩ := List.mem_filterMap.1 hchange
    obtain ⟨rfl, hplace⟩ := Operation.changeAt?_eq_some_iff.1 hat
    obtain ⟨group, htarget⟩ := Option.isSome_iff_exists.1 hsome
    obtain ⟨dest', hplace'⟩ := Change.place?_of_target? htarget
    rw [hplace] at hplace'
    cases hplace'
    refine ⟨_, hstep, Option.isSome_iff_exists.2 ⟨group, Option.filter_eq_some_iff.2 ⟨htarget, ?_⟩⟩⟩
    exact decide_eq_true rfl

namespace Registry

variable (r : Registry)

section Steps

variable {change : Change} {group : Option String} {dest : String}

theorem entryAt?_apply_of_place? (h : change.place? = some (group, dest)) (dest' : String)
    (group' : Option String) :
    (r.apply change).2.entryAt? dest' group' =
      if (group, dest) = (group', dest') then change.act (r.entryAt? dest' group')
      else r.entryAt? dest' group' := by
  cases change.concerns_of_place? h with
  | registers schema target hact htarget happly =>
    rw [happly, entryAt?_registerAt, hact]
    simp only [Prod.mk.injEq]
    by_cases hplace : target.map Group.name = group' ∧ schema.dest = dest'
    · cases hname : schema.isReserved with
      | true => simp
      | false => simp [hplace]
    · rw [if_neg hplace, if_neg]
      rintro ⟨-, rfl, rfl⟩
      exact hplace ⟨rfl, rfl⟩
  | removes schema group hact htarget happly =>
    rw [happly, entryAt?_unregister, hact]
    simp [eq_comm]
  | sets dest group f hact htarget happly =>
    rw [happly, entryAt?_modify, hact]
    simp [eq_comm, and_comm]

theorem groupAt?_apply_of_place? (h : change.place? = some (group, dest)) (name : String) :
    (r.apply change).2.groupAt? name =
      (r.groupAt? name).or (change.target?.filter fun group => group.name = name) := by
  cases change.concerns_of_place? h with
  | registers schema target hact htarget happly =>
    rw [happly, groupAt?_registerAt, htarget]
    cases hname : schema.isReserved with
    | true => simp
    | false =>
      cases target with
      | none => simp [prepared]
      | some given => simp [prepared, groupAt?_ensure, Option.filter_some, eq_comm]
  | removes schema group hact htarget happly =>
    rw [happly, groupAt?_unregister, htarget, Option.filter_none, Option.or_none]
  | sets dest group f hact htarget happly =>
    rw [happly, groupAt?_modify, htarget, Option.filter_none, Option.or_none]

theorem entryAt?_perform_local (host : Host) {operation : Operation} (h : operation.isLocal = true)
    (dest : String) (group : Option String) :
    (r.perform host operation).2.entryAt? dest group =
      (operation.changeAt? (group, dest)).toList.foldl (fun known change => change.act known)
        (r.entryAt? dest group) := by
  cases operation with
  | change change =>
    obtain ⟨⟨group', dest'⟩, hplace⟩ := Option.isSome_iff_exists.1 h
    show (r.apply change).2.entryAt? dest group = _
    rw [r.entryAt?_apply_of_place? hplace, Operation.changeAt?, hplace]
    simp only [Option.some.injEq]
    split
    · rfl
    · rfl
  | read query => rfl
  | dump level => rfl
  | parse files validating => cases h
  | reload files => cases h
  | reloadFiles => cases h

theorem groupAt?_perform_local (host : Host) {operation : Operation} (h : operation.isLocal = true)
    (name : String) :
    (r.perform host operation).2.groupAt? name =
      (r.groupAt? name).or (operation.target?.filter fun group => group.name = name) := by
  cases operation with
  | change change =>
    obtain ⟨⟨group, dest⟩, hplace⟩ := Option.isSome_iff_exists.1 h
    exact r.groupAt?_apply_of_place? hplace name
  | read query => exact (Option.or_none).symm
  | dump level => exact (Option.or_none).symm
  | parse files validating => cases h
  | reload files => cases h
  | reloadFiles => cases h

theorem installed_perform_local (host : Host) {operation : Operation}
    (h : operation.isLocal = true) : (r.perform host operation).2.installed = r.installed := by
  cases operation with
  | change change =>
    have hdrop : change.isDrop = false := by
      cases change with
      | clear => cases h
      | reset => cases h
      | _ => rfl
    exact linked_installed.apply r hdrop
  | read query => rfl
  | dump level => rfl
  | parse files validating => cases h
  | reload files => cases h
  | reloadFiles => cases h

end Steps

section Runs

variable {steps : List Step}

/-- What is known at a place after a run is what the changes addressed to it make of what was known
before. -/
theorem entryAt?_run_local (h : ∀ step ∈ steps, step.operation.isLocal = true) (dest : String)
    (group : Option String) :
    (r.run steps).2.entryAt? dest group =
      (changesAt (group, dest) steps).foldl (fun known change => change.act known)
        (r.entryAt? dest group) := by
  induction steps generalizing r with
  | nil => rfl
  | cons step rest ih =>
    obtain ⟨hstep, hrest⟩ := List.forall_mem_cons.1 h
    rw [run_cons]
    show ((r.perform step.host step.operation).2.run rest).2.entryAt? dest group = _
    rw [ih _ hrest, entryAt?_perform_local r step.host hstep, changesAt, changesAt,
      List.filterMap_cons]
    cases step.operation.changeAt? (group, dest) with
    | none => rfl
    | some change => rfl

/-- A group that is there before a run keeps its title and help; another has those of the first
registration that is for it. -/
theorem groupAt?_run_local (h : ∀ step ∈ steps, step.operation.isLocal = true) (name : String) :
    (r.run steps).2.groupAt? name = (r.groupAt? name).or (firstTarget? name steps) := by
  induction steps generalizing r with
  | nil => exact (Option.or_none).symm
  | cons step rest ih =>
    obtain ⟨hstep, hrest⟩ := List.forall_mem_cons.1 h
    rw [run_cons]
    show ((r.perform step.host step.operation).2.run rest).2.groupAt? name = _
    rw [ih _ hrest, groupAt?_perform_local r step.host hstep, Option.or_assoc, firstTarget?,
      firstTarget?, List.findSome?_cons]
    cases step.operation.target?.filter fun group => group.name = name with
    | none => rfl
    | some group => rfl

theorem installed_run_local (h : ∀ step ∈ steps, step.operation.isLocal = true) :
    (r.run steps).2.installed = r.installed := by
  induction steps generalizing r with
  | nil => rfl
  | cons step rest ih =>
    obtain ⟨hstep, hrest⟩ := List.forall_mem_cons.1 h
    exact (ih _ hrest).trans (installed_perform_local r step.host hstep)

/-- Runs that address the same changes to every place leave registries that answer alike. -/
theorem agrees_run_local {steps' : List Step}
    (h : ∀ step ∈ steps, step.operation.isLocal = true)
    (h' : ∀ step ∈ steps', step.operation.isLocal = true)
    (hsame : ∀ place, changesAt place steps = changesAt place steps') :
    (r.run steps).2.Agrees (r.run steps').2 := by
  apply agrees_of_views
  · intro dest group
    rw [entryAt?_run_local r h, entryAt?_run_local r h', hsame]
  · intro name
    have hfirst : (firstTarget? name steps).isSome = (firstTarget? name steps').isSome := by
      rw [Bool.eq_iff_iff, isSome_firstTarget?_iff, isSome_firstTarget?_iff]
      simp only [hsame]
    rw [contains_groups, contains_groups, groupAt?_run_local r h, groupAt?_run_local r h',
      Option.isSome_or, Option.isSome_or, hfirst]
  · rw [installed_run_local r h, installed_run_local r h']

end Runs

end Registry

namespace Config

/-- After a run of reads and changes of single options, what is known at a place is decided by the
changes addressed to it: the option and its schema, what replaces its default, and its lock. So two
such runs of which each addresses the same changes to every place, in the same order at each, end
with the same options and the same groups, and an option reads alike after both, whatever files are
in force. A group that was not there before has the title and the help that the first registration
for it gives. -/
theorem local_runs_agree (history : List Step) {steps steps' : List Step}
    (hlocal : ∀ step ∈ steps, step.operation.isLocal = true)
    (hlocal' : ∀ step ∈ steps', step.operation.isLocal = true) :
    let config := ((after history).run steps).2
    let config' := ((after history).run steps').2
    (∀ dest group, changesAt (group, dest) steps = changesAt (group, dest) steps' →
        config.registry.entryAt? dest group = config'.registry.entryAt? dest group) ∧
      ((∀ place, changesAt place steps = changesAt place steps') →
        config.registry.all = config'.registry.all ∧
          config.registry.groups.keys = config'.registry.groups.keys ∧
          (∀ snapshot validating dest group,
            Registry.read { config.registry with snapshot, validating } dest group =
              Registry.read { config'.registry with snapshot, validating } dest group) ∧
          ∀ host operation, operation.isRead = true →
            (config.perform host operation).1 = (config'.perform host operation).1) ∧
      ∀ name, config.registry.groupAt? name =
        ((after history).registry.groupAt? name).or (firstTarget? name steps) := by
  obtain ⟨-, hregistry, hcoherent⟩ := matches_run (coherent_after history) steps
  obtain ⟨-, hregistry', hcoherent'⟩ := matches_run (coherent_after history) steps'
  refine ⟨fun dest group hsame => ?_, fun hsame => ?_, fun name => ?_⟩
  · rw [hregistry, hregistry', Registry.entryAt?_run_local _ hlocal,
      Registry.entryAt?_run_local _ hlocal', hsame]
  · have hagrees : ((after history).run steps).2.registry.Agrees
        ((after history).run steps').2.registry := by
      rw [hregistry, hregistry']
      exact Registry.agrees_run_local _ hlocal hlocal' hsame
    exact ⟨hagrees.all, hagrees.keys_groups, hagrees.read_installed,
      fun host operation hread => perform_congr hcoherent hcoherent' hagrees host hread⟩
  · rw [hregistry, Registry.groupAt?_run_local _ hlocal]

end Config

namespace Sample

/-- A component with a titled group registers an option, which is then locked. -/
def titledSteps : List Step :=
  [⟨bareHost, .change (.registerIn port { name := "api", title := "The API" })⟩,
    locking "port" (.integer 1) (some "api")]

/-- Another component registers an option in a group that it knows by name only. -/
def namedStep : Step :=
  registering (Schema.ofName "token" Kind.text) (some "api")

end Sample

namespace Config

open Sample in
/-- Two components in either order: the options are the same, the title of their group is not. -/
theorem local_runs_agree_titles :
    (∀ step ∈ namedStep :: titledSteps, step.operation.isLocal = true) ∧
      (∀ step ∈ titledSteps ++ [namedStep], step.operation.isLocal = true) ∧
      (∀ place, changesAt place (namedStep :: titledSteps) =
        changesAt place (titledSteps ++ [namedStep])) ∧
      ((after (namedStep :: titledSteps)).registry.all =
        (after (titledSteps ++ [namedStep])).registry.all) ∧
      (after (namedStep :: titledSteps)).registry.groupAt? "api" = some (Group.ofName "api") ∧
      (after (titledSteps ++ [namedStep])).registry.groupAt? "api" =
        some { name := "api", title := "The API" } := by
  have hlocal : ∀ step ∈ namedStep :: titledSteps, step.operation.isLocal = true := by
    simp [namedStep, titledSteps, registering, locking, Operation.isLocal, Change.place?]
  have hlocal' : ∀ step ∈ titledSteps ++ [namedStep], step.operation.isLocal = true := by
    simp [namedStep, titledSteps, registering, locking, Operation.isLocal, Change.place?]
  have hsame : ∀ place, changesAt place (namedStep :: titledSteps) =
      changesAt place (titledSteps ++ [namedStep]) := by
    intro place
    by_cases htoken : (some "api", "token") = place
    · subst htoken
      rfl
    · have hnone : namedStep.operation.changeAt? place = none :=
        if_neg fun hplace => htoken (Option.some.inj hplace)
      simp only [changesAt, List.filterMap_append, List.filterMap_cons, hnone, List.filterMap_nil,
        List.append_nil]
  have hagree := local_runs_agree [] hlocal hlocal'
  exact ⟨hlocal, hlocal', hsame, (hagree.2.1 hsame).1, hagree.2.2 "api",
    (local_runs_agree [] hlocal' hlocal).2.2 "api"⟩

end Config

end LayeredConfig
