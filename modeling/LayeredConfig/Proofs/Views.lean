import LayeredConfig.Proofs.ByteOrder
import LayeredConfig.Proofs.Consistency
import LayeredConfig.Proofs.Groups
import LayeredConfig.View

/-!
# Views stay valid

A view is taken once and read later, when options of its group may have come and
gone and files have changed. Since groups stay, the group of a view is always
there, and is the very group that the view remembers: nothing that is asked of a
view is ever answered by saying that the group is missing, and the empty list of
dests that a view would show of such a group always means that the group is
empty (`View.Shows`).

The table of a group is collected dest by dest, up to the first that cannot be
read. Since the dests are in order, that one is the least of all that cannot.
-/

namespace LayeredConfig

theorem Table.pairwise_keys {α : Type} (table : Table α) :
    table.keys.Pairwise fun a b => Text.bytes a < Text.bytes b :=
  List.pairwise_map.2 (table.ascending.imp Text.bytes_lt)

namespace Registry

variable {r : Registry} {group : String} {dest first : String} {dests : List String}

section Tables

/-- All of some dests of a group can be read. -/
def Readable (r : Registry) (group : String) (dests : List String) : Prop :=
  ∀ dest ∈ dests, ∃ value, r.read dest (some group) = .ok value

theorem readable_nil (r : Registry) (group : String) : r.Readable group [] := by
  intro dest hmem
  cases hmem

theorem Readable.cons {known : Option Value} (hfirst : r.read first (some group) = .ok known)
    (h : r.Readable group dests) : r.Readable group (first :: dests) :=
  List.forall_mem_cons.2 ⟨⟨known, hfirst⟩, h⟩

/-- What a table of some dests of a group shows under a dest. -/
def shownUnder (r : Registry) (group : String) (dests : List String) (dest : String) :
    Option Value :=
  if dest ∈ dests then (r.read dest (some group)).toOption.join else none

theorem shownUnder_cons_of_none (h : r.read first (some group) = .ok none) (dest : String) :
    r.shownUnder group (first :: dests) dest = r.shownUnder group dests dest := by
  rw [shownUnder, shownUnder]
  by_cases hfirst : dest = first
  · subst hfirst
    simp [h, Except.toOption]
  · simp [hfirst]

theorem shownUnder_cons_of_some {value : Value}
    (h : r.read first (some group) = .ok (some value)) (dest : String) :
    r.shownUnder group (first :: dests) dest =
      (r.shownUnder group dests dest).or (if dest = first then some value else none) := by
  rw [shownUnder, shownUnder]
  by_cases hfirst : dest = first
  · subst hfirst
    rw [if_pos List.mem_cons_self, h, if_pos rfl]
    split
    · rfl
    · rfl
  · simp [hfirst]

/-- How collecting the table of some dests ends: with what can be read of all of them, or with the
first error. -/
theorem tableOf_cases (r : Registry) (group : String) (fields : Table Value)
    (dests : List String) :
    (∃ table, Report.tableOf (m := Id) r.read group fields dests = .ok table ∧
        r.Readable group dests ∧
        ∀ dest, table.get? dest = (r.shownUnder group dests dest).or (fields.get? dest)) ∨
      ∃ before dest rest e, dests = before ++ dest :: rest ∧ r.Readable group before ∧
        r.read dest (some group) = .error e ∧
        Report.tableOf (m := Id) r.read group fields dests = .error e := by
  induction dests generalizing fields with
  | nil => exact .inl ⟨fields, rfl, readable_nil r group, fun _ => rfl⟩
  | cons first rest ih =>
    rw [tableOf_cons]
    rcases hfirst : r.read first (some group) with e | (_ | value)
    · exact .inr ⟨[], first, rest, e, rfl, readable_nil r group, hfirst, rfl⟩
    · obtain ⟨table, htable, hrest, hget⟩ | ⟨before, dest, rest, e, rfl, hbefore, herror, htable⟩ :=
        ih fields
      · refine .inl ⟨table, htable, hrest.cons hfirst, fun dest => ?_⟩
        rw [hget, shownUnder_cons_of_none hfirst]
      · exact .inr ⟨first :: before, dest, rest, e, rfl, hbefore.cons hfirst, herror, htable⟩
    · obtain ⟨table, htable, hrest, hget⟩ | ⟨before, dest, rest, e, rfl, hbefore, herror, htable⟩ :=
        ih (fields.insert first value)
      · refine .inl ⟨table, htable, hrest.cons hfirst, fun dest => ?_⟩
        rw [hget, Table.get?_insert, shownUnder_cons_of_some hfirst]
        by_cases hdest : dest = first
        · simp [hdest]
        · simp [hdest]
      · exact .inr ⟨first :: before, dest, rest, e, rfl, hbefore.cons hfirst, herror, htable⟩

end Tables

section There

variable {entries : Table Entry} {known : Group}

theorem exists_entries?_of_groupAt? (h : r.groupAt? group = some known) :
    ∃ entries, r.entries? (some group) = .ok entries := by
  obtain ⟨m, hm, -⟩ := Option.map_eq_some_iff.1 h
  exact ⟨m.entries, entries?_some_eq_ok_iff.2 ⟨m, hm, rfl⟩⟩

theorem groupKeys?_of_entries? (h : r.entries? (some group) = .ok entries) :
    r.groupKeys? group = .ok entries.keys := by
  rw [groupKeys?, h]
  rfl

theorem mem_keys_iff (h : r.entries? (some group) = .ok entries) (dest : String) :
    dest ∈ entries.keys ↔ (r.entryAt? dest (some group)).isSome = true := by
  rw [entryAt?_of_entries?_ok h]
  exact Table.contains_iff_mem_keys.symm

theorem mem_keys_of_read (h : r.entries? (some group) = .ok entries) {value : Option Value}
    (hread : r.read dest (some group) = .ok value) : dest ∈ entries.keys := by
  rw [mem_keys_iff h]
  cases hentry : r.entry? dest (some group) with
  | error e =>
    rw [read, hentry] at hread
    cases hread
  | ok entry =>
    rw [entry?_eq_ok_iff.1 hentry]
    rfl

theorem table_of_entries? (h : r.entries? (some group) = .ok entries) :
    r.table group = Report.tableOf (m := Id) r.read group Table.empty entries.keys := by
  rw [table, groupKeys?_of_entries? h]

theorem get?_of_table (h : r.entries? (some group) = .ok entries) {table : Table Value}
    (htable : r.table group = .ok table) (dest : String) (value : Value) :
    table.get? dest = some value ↔ r.read dest (some group) = .ok (some value) := by
  rw [table_of_entries? h] at htable
  obtain ⟨collected, hcollected, hreadable, hget⟩ | ⟨before, dest, rest, e, -, -, -, hfailed⟩ :=
    r.tableOf_cases group Table.empty entries.keys
  · cases htable.symm.trans hcollected
    rw [hget, Table.get?_empty, Option.or_none, shownUnder]
    split
    · next hmem =>
      obtain ⟨known, hread⟩ := hreadable dest hmem
      rw [hread]
      simp [Except.toOption]
    · next hmem =>
      constructor
      · intro hnone
        cases hnone
      · exact fun hread => absurd (mem_keys_of_read h hread) hmem
  · cases htable.symm.trans hfailed

theorem table_ok_iff (h : r.entries? (some group) = .ok entries) :
    (∃ table, r.table group = .ok table) ↔ r.Readable group entries.keys := by
  rw [table_of_entries? h]
  obtain ⟨table, htable, hreadable, -⟩ | ⟨before, dest, rest, e, hkeys, -, herror, hfailed⟩ :=
    r.tableOf_cases group Table.empty entries.keys
  · exact ⟨fun _ => hreadable, fun _ => ⟨table, htable⟩⟩
  · constructor
    · rintro ⟨table, htable⟩
      cases htable.symm.trans hfailed
    · intro hreadable
      obtain ⟨value, hread⟩ := hreadable dest (by simp [hkeys])
      cases hread.symm.trans herror

/-- A table cannot be collected exactly if some dest cannot be read; its error is that of the least
such dest. -/
theorem table_error_iff (h : r.entries? (some group) = .ok entries) (e : ConfigError) :
    r.table group = .error e ↔
      ∃ dest ∈ entries.keys, r.read dest (some group) = .error e ∧
        ∀ other ∈ entries.keys, Text.bytes other < Text.bytes dest →
          ∃ value, r.read other (some group) = .ok value := by
  have hascending := entries.pairwise_keys
  rw [table_of_entries? h]
  obtain ⟨table, htable, hreadable, -⟩ |
      ⟨before, first, rest, e', hkeys, hbefore, herror, hfailed⟩ :=
    r.tableOf_cases group Table.empty entries.keys
  · rw [htable]
    constructor
    · intro hok
      cases hok
    · rintro ⟨dest, hmem, hread, -⟩
      obtain ⟨value, hvalue⟩ := hreadable dest hmem
      cases hread.symm.trans hvalue
  · rw [hfailed, hkeys]
    rw [hkeys, List.pairwise_append, List.pairwise_cons] at hascending
    obtain ⟨-, ⟨hrest, -⟩, -⟩ := hascending
    -- The dests come in order, so the first that fails is the least.
    constructor
    · intro he
      cases he
      refine ⟨first, by simp, herror, fun other hother hlt => ?_⟩
      simp only [List.mem_append, List.mem_cons] at hother
      obtain hmem | rfl | hmem := hother
      · exact hbefore other hmem
      · exact absurd hlt (List.lt_irrefl _)
      · exact absurd hlt (List.lt_asymm (hrest other hmem))
    · rintro ⟨dest, hdest, hread, hleast⟩
      simp only [List.mem_append, List.mem_cons] at hdest
      obtain hmem | rfl | hmem := hdest
      · obtain ⟨value, hvalue⟩ := hbefore dest hmem
        cases hread.symm.trans hvalue
      · cases herror.symm.trans hread
        rfl
      · obtain ⟨value, hvalue⟩ := hleast first (by simp) (hrest dest hmem)
        cases herror.symm.trans hvalue

/-- Nothing that is asked of a group that is there is answered by saying that a group is not. -/
theorem Keyed.read_ne_noSuchGroup (h : r.Keyed) (hthere : r.groupAt? group = some known)
    (dest other : String) : r.read dest (some group) ≠ .error (.noSuchGroup other) := by
  intro hread
  obtain ⟨hsame, habsent⟩ := ((h.misses_read dest (some group)).noSuchGroup other).1 hread
  cases hsame
  rw [mem_keys_groups, hthere] at habsent
  exact habsent rfl

theorem readAs_error {shape : Shape} {place : Option String} {e : ConfigError}
    (h : r.readAs shape dest place = .error e) :
    r.read dest place = .error e ∨ e = .shapeMismatch dest := by
  rw [readAs] at h
  rcases hread : r.read dest place with e' | (_ | value)
  · rw [hread] at h
    cases h
    exact .inl rfl
  · rw [hread] at h
    cases h
  · rw [hread] at h
    cases hshape : shape.read? value with
    | none =>
      simp only [hshape] at h
      cases h
      exact .inr rfl
    | some shaped =>
      simp only [hshape] at h
      cases h

theorem readRecord_error {record : List (String × Shape)} {e : ConfigError}
    (h : r.readRecord record group = .error e) :
    r.table group = .error e ∨ e = .shapeMismatch group := by
  rw [readRecord] at h
  cases htable : r.table group with
  | error e' =>
    rw [htable] at h
    cases h
    exact .inl rfl
  | ok fields =>
    rw [htable] at h
    cases hrecord : Shape.readRecord? record fields with
    | none =>
      simp only [hrecord] at h
      cases h
      exact .inr rfl
    | some values =>
      simp only [hrecord] at h
      cases h

theorem Keyed.readAs_ne_noSuchGroup (h : r.Keyed) (hthere : r.groupAt? group = some known)
    (shape : Shape) (dest other : String) :
    r.readAs shape dest (some group) ≠ .error (.noSuchGroup other) := by
  intro herror
  obtain hread | hshape := readAs_error herror
  · exact h.read_ne_noSuchGroup hthere dest other hread
  · cases hshape

theorem Keyed.table_ne_noSuchGroup (h : r.Keyed) (hthere : r.groupAt? group = some known)
    (other : String) : r.table group ≠ .error (.noSuchGroup other) := by
  intro htable
  obtain ⟨entries, hentries⟩ := exists_entries?_of_groupAt? hthere
  obtain ⟨dest, -, hread, -⟩ := (table_error_iff hentries _).1 htable
  exact h.read_ne_noSuchGroup hthere dest other hread

theorem Keyed.readRecord_ne_noSuchGroup (h : r.Keyed) (hthere : r.groupAt? group = some known)
    (record : List (String × Shape)) (other : String) :
    r.readRecord record group ≠ .error (.noSuchGroup other) := by
  intro herror
  obtain htable | hshape := readRecord_error herror
  · exact h.table_ne_noSuchGroup hthere other htable
  · cases hshape

end There

end Registry

namespace View

variable {view : View} {config : Config} {known : Group}

/-- What a view shows of a configuration that its group is in: the dests that are registered in the
group, in the order of their bytes, and no answer that a group is missing. Its table is there if
all dests can be read, with the values of those that have one; otherwise the least dest that
cannot be read gives the error. -/
structure Shows (view : View) (config : Config) : Prop where
  groupKeys?_eq : config.registry.groupKeys? view.name = .ok (view.keys config)
  ascending_keys : (view.keys config).Pairwise fun a b => Text.bytes a < Text.bytes b
  mem_keys_iff : ∀ dest, dest ∈ view.keys config ↔
    (config.registry.entryAt? dest (some view.name)).isSome = true
  read_ne : ∀ dest other, ((view.read dest).run config).1 ≠ .error (.noSuchGroup other)
  readAs_ne : ∀ shape dest other,
    ((view.readAs shape dest).run config).1 ≠ .error (.noSuchGroup other)
  table_ne : ∀ other, (view.table.run config).1 ≠ .error (.noSuchGroup other)
  readRecord_ne : ∀ record other,
    ((view.readRecord record).run config).1 ≠ .error (.noSuchGroup other)
  table_ok_iff : (∃ table, (view.table.run config).1 = .ok table) ↔
    ∀ dest ∈ view.keys config, ∃ value, ((view.read dest).run config).1 = .ok value
  get?_table : ∀ table, (view.table.run config).1 = .ok table → ∀ dest value,
    table.get? dest = some value ↔ ((view.read dest).run config).1 = .ok (some value)
  table_error_iff : ∀ e, (view.table.run config).1 = .error e ↔
    ∃ dest ∈ view.keys config, ((view.read dest).run config).1 = .error e ∧
      ∀ other ∈ view.keys config, Text.bytes other < Text.bytes dest →
        ∃ value, ((view.read other).run config).1 = .ok value

theorem shows (view : View) (hcoherent : config.Coherent) (hkeyed : config.registry.Keyed)
    (hthere : config.registry.groupAt? view.name = some known) : view.Shows config := by
  obtain ⟨entries, hentries⟩ := Registry.exists_entries?_of_groupAt? hthere
  have hgroupKeys := Registry.groupKeys?_of_entries? hentries
  have hkeys : view.keys config = entries.keys := by
    rw [keys, hgroupKeys]
  have hread : ∀ dest, ((view.read dest).run config).1 =
      config.registry.read dest (some view.name) :=
    fun dest => (Config.gives_read _ dest _ config hcoherent rfl).answer
  have htable : (view.table.run config).1 = config.registry.table view.name :=
    (Config.gives_table _ view.name config hcoherent rfl).answer
  refine {
    groupKeys?_eq := hkeys ▸ hgroupKeys
    ascending_keys := hkeys ▸ entries.pairwise_keys
    mem_keys_iff := fun dest => hkeys ▸ Registry.mem_keys_iff hentries dest
    read_ne := fun dest other => ?_
    readAs_ne := fun shape dest other => ?_
    table_ne := fun other => ?_
    readRecord_ne := fun record other => ?_
    table_ok_iff := ?_
    get?_table := fun table hok dest value => ?_
    table_error_iff := fun e => ?_ }
  · rw [hread]
    exact hkeyed.read_ne_noSuchGroup hthere dest other
  · rw [readAs, (Config.gives_readAs _ shape dest _ config hcoherent rfl).answer]
    exact hkeyed.readAs_ne_noSuchGroup hthere shape dest other
  · rw [htable]
    exact hkeyed.table_ne_noSuchGroup hthere other
  · rw [readRecord, (Config.gives_readRecord _ record _ config hcoherent rfl).answer]
    exact hkeyed.readRecord_ne_noSuchGroup hthere record other
  · simp only [htable, hread, hkeys]
    exact Registry.table_ok_iff hentries
  · rw [htable] at hok
    rw [hread]
    exact Registry.get?_of_table hentries hok dest value
  · simp only [htable, hread, hkeys]
    exact Registry.table_error_iff hentries e

end View

namespace Config

theorem view?_eq_ok_iff {config : Config} {name : String} {view : View} :
    config.view? name = .ok view ↔ config.registry.groupAt? name = some view.group := by
  rw [view?, Registry.groupAt?]
  cases config.registry.groups.get? name with
  | none => simp
  | some m =>
    constructor
    · intro h
      cases h
      rfl
    · intro h
      obtain ⟨group⟩ := view
      cases h
      rfl

/-- On every run a group that is there at one moment is there at every later one, with the title
and the help that it got from the change that created it: those that were given, or those that go
with the name. So a view that is taken at any moment is the view of the group ever after, and shows
what is registered in the group and can be read. -/
theorem view_lasts {past : List Step} {name : String} {view : View}
    (htaken : (after past).view? name = .ok view) (later : List Step) :
    view.name = name ∧
      (∃ before step rest change, past = before ++ step :: rest ∧
        step.operation = .change change ∧ change.group? = some view.group ∧
        (after before).registry.groupAt? name = none ∧
        (after (before ++ [step])).registry.groupAt? name = some view.group) ∧
      (after (past ++ later)).registry.groupAt? name = some view.group ∧
      (after (past ++ later)).view? name = .ok view ∧
      view.Shows (after (past ++ later)) := by
  have hgroup := view?_eq_ok_iff.1 htaken
  obtain ⟨before, step, rest, change, hpast, hchange, hbefore, hcreated, hasked, hname⟩ :=
    Registry.exists_creation rfl (registry_after past ▸ hgroup)
  rw [← registry_after] at hbefore hcreated
  have hlater : (after (past ++ later)).registry.groupAt? name = some view.group := by
    rw [registry_after_append]
    exact Registry.groupsStay_run (after past).registry later name view.group hgroup
  have hthere : (after (past ++ later)).registry.groupAt? view.name = some view.group := by
    rw [View.name, hname, hlater]
  exact ⟨hname, ⟨before, step, rest, change, hpast, hchange, hasked, hbefore, hcreated⟩, hlater,
    view?_eq_ok_iff.2 hlater, view.shows (coherent_after _) (keyed_after _) hthere⟩

end Config

namespace Sample

/-- A group with a title of its own. -/
def titledApi : Group :=
  { name := "api", title := "API" }

/-- The group is created as a whole, with an option. -/
def opening : List Step :=
  [⟨bareHost, .change (.registerIn port titledApi)⟩]

/-- The option goes, the group is asked for again by its name, and two other options come. -/
def refitting : List Step :=
  [⟨bareHost, .change (.unregister [port] (some "api"))⟩, ⟨bareHost, .change .reset⟩,
    ⟨bareHost, .change (.registerGroup (Group.ofName "api"))⟩,
    registering { port with name := "retries", dest := "retries" } (some "api"),
    registering (Schema.ofName "motto" Kind.text) (some "api")]

end Sample

namespace Config

open Sample in
/-- A view that is taken before its group loses all options and gets others. -/
theorem view_lasts_refitted :
    let view : View := { group := titledApi }
    let config := after (opening ++ refitting)
    (after opening).view? "api" = .ok view ∧
      config.view? "api" = .ok view ∧
      view.keys config = ["motto", "retries"] ∧
      ((view.read "port").run config).1 = .error (.noSuchOption "port" (some "api")) ∧
      ∃ table, (view.table.run config).1 = .ok table ∧
        table.get? "retries" = some (.integer 80) ∧ ∀ value, table.get? "motto" ≠ some value := by
  intro view config
  have htaken : (after opening).view? "api" = .ok view := rfl
  obtain ⟨-, -, -, hview, hshows⟩ := view_lasts htaken refitting
  have hkeys : view.keys config = ["motto", "retries"] := rfl
  have hmotto : ((view.read "motto").run config).1 = .ok none := rfl
  have hretries : ((view.read "retries").run config).1 = .ok (some (.integer 80)) := rfl
  obtain ⟨table, htable⟩ := hshows.table_ok_iff.2 (by
    rw [hkeys]
    exact List.forall_mem_cons.2 ⟨⟨_, hmotto⟩, List.forall_mem_singleton.2 ⟨_, hretries⟩⟩)
  refine ⟨htaken, hview, hkeys, rfl, table, htable, ?_, fun value hvalue => ?_⟩
  · exact (hshows.get?_table table htable "retries" _).2 hretries
  · cases hmotto.symm.trans ((hshows.get?_table table htable "motto" value).1 hvalue)

end Config

end LayeredConfig
