import LayeredConfig.Proofs.Effects
import LayeredConfig.Proofs.Order
import LayeredConfig.Proofs.Settled

/-!
# A registry in order

What every registry that a run leads to can be relied on for. Options are kept
under their own dests and groups under their own names, and going through all
options meets every place that is taken once, in order. A look-up at a place
therefore has three endings only: the group is not there, the group is there but
the option is not, or the option is found (`Registry.Misses`). Whatever goes
through all options and looks each of them up again finds it.
-/

namespace LayeredConfig

/-- Whether an error says that something is not registered. -/
def ConfigError.isMissing : ConfigError → Bool
  | noSuchGroup _ | noSuchOption _ _ => true
  | _ => false

theorem Entry.isMissing_of_resolve {entry : Entry} {group : Option String}
    {snapshot : Option Snapshot} {validating : Bool} {e : ConfigError}
    (h : entry.resolve group snapshot validating = .error e) : e.isMissing = false := by
  obtain ⟨value, -, hcase⟩ | ⟨value, -, hcase⟩ | ⟨-, hcase⟩ :=
    resolve_cases entry group snapshot validating
  · rw [hcase] at h
    cases h
  · rw [hcase] at h
    obtain ⟨cause, -, rfl⟩ := some_map_mapError_eq_error h
    rfl
  · rw [hcase] at h
    obtain ⟨value, -, -, hdefault⟩ | ⟨value, -, hdefault⟩ | ⟨-, hdefault⟩ :=
      resolveDefault_cases entry validating
    · rw [hdefault] at h
      cases h
    · rw [hdefault] at h
      obtain ⟨cause, -, rfl⟩ := some_map_mapError_eq_error h
      rfl
    · rw [hdefault] at h
      cases h

/-- What a dump shows of an option whose value was asked for. -/
def Report.outcome (isSecret : Bool) : Except ConfigError (Option Value) → String
  | .ok value => shown isSecret value
  | .error e => "<error: " ++ e.message ++ ">"

namespace Registry

variable {r : Registry}

section Groups

/-- Every group is kept under its own name. -/
def GroupsNamed (r : Registry) : Prop :=
  ∀ name group, r.groupAt? name = some group → group.name = name

theorem GroupsNamed.of_groupAt?_eq {s : Registry} (h : r.GroupsNamed)
    (heq : ∀ name, s.groupAt? name = r.groupAt? name) : s.GroupsNamed := by
  intro name group hgroup
  exact h name group (heq name ▸ hgroup)

theorem GroupsNamed.ensure (h : r.GroupsNamed) (group : Group) : (r.ensure group).GroupsNamed := by
  intro name known hknown
  rw [groupAt?_ensure, Option.or_eq_some_iff] at hknown
  obtain hold | ⟨-, hnew⟩ := hknown
  · exact h name known hold
  · split at hnew
    · next hname =>
      cases hnew
      exact hname.symm
    · cases hnew

theorem GroupsNamed.registerAt (h : r.GroupsNamed) (schema : Schema) (target : Option Group) :
    (r.registerAt schema target).2.GroupsNamed := by
  cases hname : schema.isReserved with
  | true => exact h.of_groupAt?_eq fun name => by rw [groupAt?_registerAt, if_pos hname]
  | false =>
    have hprepared : (r.prepared target).GroupsNamed := by
      cases target with
      | none => exact h
      | some group => exact h.ensure group
    exact hprepared.of_groupAt?_eq fun name => by
      rw [groupAt?_registerAt, hname, if_neg Bool.false_ne_true]

theorem invariant_groupsNamed : Invariant GroupsNamed where
  linked := {
    refl := fun _ h => h
    trans := fun hrs hst h => hst (hrs h)
    ensure := fun _ group h => h.ensure group
    registerAt := fun _ schema target h => h.registerAt schema target
    unregister := fun r schemas group h => h.of_groupAt?_eq (groupAt?_unregister r schemas group)
    modify := fun r dest group f _ h => h.of_groupAt?_eq (groupAt?_modify r dest group f) }
  clear := fun h => h
  reset := fun {r} h => h.of_groupAt?_eq (groupAt?_reset r)
  parse := fun {r host files validating} h =>
    h.of_groupAt?_eq (groupAt?_parse r host files validating)

end Groups

section Places

/-- The places of all options, in the order in which they are gone through. -/
def places (r : Registry) : List (Option String × String) :=
  r.all.map fun option => (option.1, option.2.schema.dest)

theorem Keyed.mem_places_iff (h : r.Keyed) {dest : String} {group : Option String} :
    (group, dest) ∈ r.places ↔ (r.entryAt? dest group).isSome = true := by
  rw [places, List.mem_map, Option.isSome_iff_exists]
  constructor
  · rintro ⟨⟨group', entry⟩, hmem, hplace⟩
    obtain ⟨rfl, rfl⟩ := Prod.mk.inj hplace
    exact ⟨entry, h.mem_all_iff.1 hmem⟩
  · rintro ⟨entry, hentry⟩
    have hdest := (h dest group entry hentry).dest_eq
    refine ⟨(group, entry), h.mem_all_iff.2 ?_, ?_⟩
    · rw [hdest]
      exact hentry
    · rw [hdest]

theorem Precedes.place_ne {a b : Option String × Entry} (h : Precedes a b) :
    (a.1, a.2.schema.dest) ≠ (b.1, b.2.schema.dest) := by
  obtain ⟨group, entry⟩ := a
  obtain ⟨group', entry'⟩ := b
  intro heq
  obtain ⟨rfl, hdest⟩ := Prod.mk.inj heq
  simp only at hdest
  cases group with
  | none =>
    simp only [Precedes, hdest] at h
    exact List.lt_irrefl _ h
  | some name =>
    simp only [Precedes, hdest] at h
    obtain hlt | ⟨-, hlt⟩ := h
    · exact List.lt_irrefl _ hlt
    · exact List.lt_irrefl _ hlt

theorem Keyed.nodup_places (h : r.Keyed) : r.places.Nodup :=
  List.pairwise_map.2 (h.pairwise_all.imp Precedes.place_ne)

end Places

section Missing

variable {α : Type} {dest : String} {group : Option String} {answer : Except ConfigError α}

/-- A group is there, or it is the place outside all groups. -/
def HasGroup (r : Registry) : Option String → Prop
  | none => True
  | some name => name ∈ r.groups.keys

/-- An answer about a place names the group as missing exactly if the group is not there, and the
option exactly if the group is there and the place is free. -/
structure Misses (r : Registry) (dest : String) (group : Option String)
    (answer : Except ConfigError α) : Prop where
  noSuchGroup : ∀ name, answer = .error (.noSuchGroup name) ↔
    group = some name ∧ name ∉ r.groups.keys
  noSuchOption : ∀ other otherGroup, answer = .error (.noSuchOption other otherGroup) ↔
    (other = dest ∧ otherGroup = group) ∧ r.HasGroup group ∧ (group, dest) ∉ r.places

theorem entry?_cases (r : Registry) (dest : String) (group : Option String) :
    (∃ name, group = some name ∧ name ∉ r.groups.keys ∧ r.entryAt? dest group = none ∧
        r.entry? dest group = .error (.noSuchGroup name)) ∨
      (r.HasGroup group ∧ r.entryAt? dest group = none ∧
        r.entry? dest group = .error (.noSuchOption dest group)) ∨
      ∃ entry, r.HasGroup group ∧ r.entryAt? dest group = some entry ∧
        r.entry? dest group = .ok entry := by
  cases hentries : r.entries? group with
  | error e =>
    have hfree := entryAt?_of_entries?_error hentries dest
    cases group with
    | none => cases hentries
    | some name =>
      obtain ⟨hnone, rfl⟩ := entries?_some_eq_error_iff.1 hentries
      have habsent : name ∉ r.groups.keys := by
        rw [mem_keys_groups, groupAt?, hnone]
        exact Bool.false_ne_true
      exact .inl ⟨name, rfl, habsent, hfree, by simp only [hentries, entry?]⟩
  | ok entries =>
    have hgroup : r.HasGroup group := by
      cases group with
      | none => trivial
      | some name =>
        obtain ⟨m, hm, -⟩ := entries?_some_eq_ok_iff.1 hentries
        show name ∈ r.groups.keys
        rw [mem_keys_groups, groupAt?, hm]
        rfl
    have hat := entryAt?_of_entries?_ok hentries dest
    cases hget : entries.get? dest with
    | none =>
      exact .inr (.inl ⟨hgroup, hat.trans hget, by simp only [hentries, hget, entry?]⟩)
    | some entry =>
      exact .inr (.inr ⟨entry, hgroup, hat.trans hget, by simp only [hentries, hget, entry?]⟩)

theorem misses_noSuchGroup {name : String} (h : name ∉ r.groups.keys) :
    r.Misses dest (some name) (.error (.noSuchGroup name) : Except ConfigError α) where
  noSuchGroup other := by
    simp only [Except.error.injEq, ConfigError.noSuchGroup.injEq, Option.some.injEq]
    constructor
    · rintro rfl
      exact ⟨rfl, h⟩
    · exact fun hother => hother.1
  noSuchOption other otherGroup := by
    constructor
    · intro hother
      cases hother
    · rintro ⟨-, hthere, -⟩
      exact absurd hthere h

theorem misses_noSuchOption (hgroup : r.HasGroup group) (hfree : (group, dest) ∉ r.places) :
    r.Misses dest group (.error (.noSuchOption dest group) : Except ConfigError α) where
  noSuchGroup name := by
    constructor
    · intro hname
      cases hname
    · rintro ⟨rfl, habsent⟩
      exact absurd hgroup habsent
  noSuchOption other otherGroup := by
    simp only [Except.error.injEq, ConfigError.noSuchOption.injEq]
    constructor
    · rintro ⟨rfl, rfl⟩
      exact ⟨⟨rfl, rfl⟩, hgroup, hfree⟩
    · rintro ⟨⟨rfl, rfl⟩, -, -⟩
      exact ⟨rfl, rfl⟩

/-- At a place that is taken, an answer that says of nothing that it is missing. -/
theorem misses_found (hgroup : r.HasGroup group) (htaken : (group, dest) ∈ r.places)
    (h : ∀ e, answer = .error e → e.isMissing = false) : r.Misses dest group answer where
  noSuchGroup name := by
    constructor
    · intro hname
      cases h _ hname
    · rintro ⟨rfl, habsent⟩
      exact absurd hgroup habsent
  noSuchOption other otherGroup := by
    constructor
    · intro hother
      cases h _ hother
    · rintro ⟨-, -, hfree⟩
      exact absurd htaken hfree

/-- An answer that passes on the error of a look-up, and misses nothing once the option is found. -/
theorem Keyed.misses (h : r.Keyed)
    (herror : ∀ e, r.entry? dest group = .error e → answer = .error e)
    (hfound : ∀ entry, r.entry? dest group = .ok entry → ∀ e, answer = .error e →
      e.isMissing = false) : r.Misses dest group answer := by
  have hplace : (group, dest) ∈ r.places ↔ (r.entryAt? dest group).isSome = true :=
    h.mem_places_iff
  obtain ⟨name, rfl, habsent, -, hcase⟩ | ⟨hgroup, hfree, hcase⟩ |
    ⟨entry, hgroup, hentry, hcase⟩ := entry?_cases r dest group
  · rw [herror _ hcase]
    exact misses_noSuchGroup habsent
  · rw [hfree] at hplace
    rw [herror _ hcase]
    exact misses_noSuchOption hgroup fun hmem => Bool.false_ne_true (hplace.1 hmem)
  · rw [hentry] at hplace
    exact misses_found hgroup (hplace.2 rfl) (hfound entry hcase)

theorem Keyed.misses_read (h : r.Keyed) (dest : String) (group : Option String) :
    r.Misses dest group (r.read dest group) := by
  refine h.misses (fun e herror => ?_) fun entry hentry e herror => ?_
  · simp only [read, herror]
  · simp only [read, hentry] at herror
    exact Entry.isMissing_of_resolve herror

theorem modify_answer (r : Registry) (dest : String) (group : Option String)
    (f : Entry → Entry) :
    (r.modify dest group f).1 = (fun _ => ()) <$> r.entry? dest group := by
  rw [modify, entry?]
  cases r.entries? group with
  | error e => rfl
  | ok entries =>
    cases hget : entries.get? dest with
    | none =>
      simp only [hget]
      rfl
    | some entry =>
      simp only [hget]
      rfl

theorem Keyed.misses_modify (h : r.Keyed) (dest : String) (group : Option String)
    (f : Entry → Entry) :
    r.Misses dest group (apply.answered (fun _ => .done) (r.modify dest group f)).1 := by
  refine h.misses (fun e herror => ?_) fun entry hentry e herror => ?_
  · rw [apply.answered, modify_answer, herror]
    rfl
  · rw [apply.answered, modify_answer, hentry] at herror
    cases herror

end Missing

section Reports

theorem Keyed.read_of_mem_all (h : r.Keyed) {option : Option String × Entry}
    (hmem : option ∈ r.all) :
    r.read option.2.schema.dest option.1 =
      option.2.resolve option.1 r.snapshot r.validating := by
  simp only [read, entry?_eq_ok_iff.2 (h.mem_all_iff.1 hmem)]

theorem exists_of_entries_error {options : List (Option String × Entry)} {e : ConfigError}
    (h : Report.entries (m := Id) r.read options = .error e) :
    ∃ option ∈ options, r.read option.2.schema.dest option.1 = .error e := by
  induction options with
  | nil => cases h
  | cons option rest ih =>
    obtain ⟨group, entry⟩ := option
    rw [entries_cons] at h
    cases hread : r.read entry.schema.dest group with
    | error e' =>
      rw [hread] at h
      cases h
      exact ⟨(group, entry), List.mem_cons_self, hread⟩
    | ok value =>
      rw [hread] at h
      cases hrest : Report.entries (m := Id) r.read rest with
      | error e' =>
        rw [hrest] at h
        cases h
        obtain ⟨option, hmem, hoption⟩ := ih hrest
        exact ⟨option, List.mem_cons_of_mem _ hmem, hoption⟩
      | ok lines =>
        rw [hrest] at h
        cases h

theorem Keyed.isMissing_of_list (h : r.Keyed) {e : ConfigError}
    (hlist : Report.make (m := Id) r.read r .list = .error e) : e.isMissing = false := by
  have hmap : Except.map Report.listing (Report.entries (m := Id) r.read r.all) = .error e := hlist
  cases hentries : Report.entries (m := Id) r.read r.all with
  | ok lines =>
    rw [hentries] at hmap
    cases hmap
  | error e' =>
    rw [hentries] at hmap
    cases hmap
    obtain ⟨option, hmem, hread⟩ := exists_of_entries_error hentries
    rw [h.read_of_mem_all hmem] at hread
    exact Entry.isMissing_of_resolve hread

theorem dumpLines_eq_map (r : Registry) (options : List (Option String × Entry)) :
    Report.dumpLines (m := Id) r.read options =
      options.map fun option =>
        Report.padded 30 (Report.key option.2.schema.dest option.1) ++ " = " ++
          Report.outcome option.2.schema.secret (r.read option.2.schema.dest option.1) := by
  induction options with
  | nil => rfl
  | cons option rest ih =>
    obtain ⟨group, entry⟩ := option
    rw [dumpLines_cons, ih, List.map_cons]
    cases r.read entry.schema.dest group with
    | error e => rfl
    | ok value => rfl

/-- A dump shows of every option what resolving it gives. -/
theorem Keyed.dumpLines_all (h : r.Keyed) :
    Report.dumpLines (m := Id) r.read r.all =
      r.all.map fun option =>
        Report.padded 30 (Report.key option.2.schema.dest option.1) ++ " = " ++
          Report.outcome option.2.schema.secret
            (option.2.resolve option.1 r.snapshot r.validating) := by
  rw [dumpLines_eq_map]
  refine List.map_congr_left fun option hmem => ?_
  rw [h.read_of_mem_all hmem]

end Reports

theorem length_keys (r : Registry) : r.keys.length = r.size := by
  rw [keys, List.length_append, Table.keys, Table.keys, List.length_map, List.length_map]
  rfl

theorem contains_iff_mem_keys {name : String} : r.contains name = true ↔ name ∈ r.keys := by
  rw [contains, keys, Bool.or_eq_true, List.mem_append, Table.contains_iff_mem_keys,
    Table.contains_iff_mem_keys]

end Registry

namespace Config

/-- In every registry that a run leads to, options are kept under their own dests and have names
for callers, groups are kept under their own names, and going through all options meets every place
that is taken once, in order. So a look-up misses a group exactly if it is not there, and an option
exactly if its group is there and its place is free; a listing and a dump, which look up the options
that they go through, miss neither. What is contained is what has a key, and there are as many keys
as the size says. -/
theorem registry_consistent (history : List Step) :
    let config := after history
    let r := config.registry
    (r.Keyed ∧ r.GroupsNamed) ∧
      (r.all.Pairwise Registry.Precedes ∧ r.places.Nodup ∧
        ∀ dest group, (group, dest) ∈ r.places ↔ (r.entryAt? dest group).isSome = true) ∧
      (∀ dest group, r.Misses dest group ((read dest group).run config).1 ∧
        ∀ host value, ∀ change ∈ [.setDefault dest value group, .clearDefault dest group,
            .lock dest value group, .unlock dest group],
          r.Misses dest group (config.perform host (.change change)).1.answer) ∧
      ((∀ e, ((handle .list).run config).1 = .error e → e.isMissing = false) ∧
        (∀ option ∈ r.all, ∀ e, option.2.resolve option.1 r.snapshot r.validating = .error e →
          e.isMissing = false) ∧
        ∀ level, ((dump level).run config).1 =
          ([Report.rule '*', "Configuration options gathered from:",
              "config files: " ++ Text.quotedPaths r.files, Report.rule '='] ++
            (r.all.map fun option =>
              Report.padded 30 (Report.key option.2.schema.dest option.1) ++ " = " ++
                Report.outcome option.2.schema.secret
                  (option.2.resolve option.1 r.snapshot r.validating)) ++
            [Report.rule '*']).map fun text => { level, message := text }) ∧
      r.keys.length = r.size ∧ ∀ name, r.contains name = true ↔ name ∈ r.keys := by
  intro config r
  have hkeyed : r.Keyed := keyed_after history
  have hnamed : r.GroupsNamed :=
    Registry.invariant_groupsNamed.after (fun name group hgroup => by cases hgroup) history
  have hcoherent : config.Coherent := coherent_after history
  refine ⟨⟨hkeyed, hnamed⟩, ?_, ?_, ?_, r.length_keys, fun name => Registry.contains_iff_mem_keys⟩
  · exact ⟨hkeyed.pairwise_all, hkeyed.nodup_places, fun dest group => hkeyed.mem_places_iff⟩
  · intro dest group
    constructor
    · rw [(gives_read r dest group config hcoherent rfl).answer]
      exact hkeyed.misses_read dest group
    · intro host value change hchange
      rw [perform_change_answer]
      simp only [List.mem_cons, List.not_mem_nil, or_false] at hchange
      rcases hchange with rfl | rfl | rfl | rfl
      all_goals exact hkeyed.misses_modify dest group _
  · refine ⟨fun e he => ?_, fun option _ e => Entry.isMissing_of_resolve, fun level => ?_⟩
    · rw [(gives_handle r .list config hcoherent rfl).answer] at he
      exact hkeyed.isMissing_of_list he
    · rw [(gives_dump r level config hcoherent rfl).answer, Report.dump, hkeyed.dumpLines_all]
      rfl

open Sample in
/-- A read of an option that is not in its group, and a lock in a group that is not there. -/
theorem registry_consistent_missing :
    let config := after [registering port (some "api")]
    ((read "host" (some "api")).run config).1 = .error (.noSuchOption "host" (some "api")) ∧
      (config.perform bareHost (.change (.lock "port" (.integer 1) (some "web")))).1.answer =
        .error (.noSuchGroup "web") := by
  intro config
  obtain ⟨-, -, hmisses, -⟩ := registry_consistent [registering port (some "api")]
  have hgroup : config.registry.HasGroup (some "api") :=
    show "api" ∈ (after [registering port (some "api")]).registry.groups.keys by decide
  constructor
  · exact ((hmisses "host" (some "api")).1.noSuchOption "host" (some "api")).2
      ⟨⟨rfl, rfl⟩, hgroup, by decide⟩
  · exact (((hmisses "port" (some "web")).2 bareHost (.integer 1) _ (by simp)).noSuchGroup "web").2
      ⟨rfl, by decide⟩

end Config

end LayeredConfig
