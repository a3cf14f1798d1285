import LayeredConfig.Proofs.Effects
import LayeredConfig.Proofs.Memo

/-!
# Registries that answer alike

What reads can find out about a registry is which options there are, what each
of them reads as, and which files and sections are in force. Registries that
agree in this (`Registry.Agrees`) turn every read out alike, reports and dumps
included, though the titles and helps of their groups may differ, and though one
may have no files in force where the other has an empty list of them.
-/

namespace LayeredConfig

namespace Registry

variable {r s : Registry}

/-- Two registries have the same options, which read as the same values, and the same files and
sections. -/
structure Agrees (r s : Registry) : Prop where
  entries? : ∀ group, r.entries? group = s.entries? group
  read : ∀ dest group, r.read dest group = s.read dest group
  files : r.files = s.files
  sectionNames : r.sectionNames = s.sectionNames

theorem Agrees.refl (r : Registry) : r.Agrees r :=
  ⟨fun _ => rfl, fun _ _ => rfl, rfl, rfl⟩

theorem entry?_installed (r : Registry) (snapshot : Option Snapshot) (validating : Bool)
    (dest : String) (group : Option String) :
    Registry.entry? { r with snapshot, validating } dest group = r.entry? dest group := by
  cases group with
  | none => rfl
  | some name => rfl

/-- What is known at all places, the groups, and what is in force decide all reads. -/
theorem agrees_of_views (hentry : ∀ dest group, r.entryAt? dest group = s.entryAt? dest group)
    (hgroups : ∀ name, r.groups.contains name = s.groups.contains name)
    (hinstalled : r.installed = s.installed) : r.Agrees s := by
  have hentries := entries?_congr hentry hgroups
  obtain ⟨hsnapshot, hmode⟩ := Prod.mk.inj hinstalled
  refine ⟨hentries, fun dest group => ?_, ?_, ?_⟩
  · rw [read, read, entry?, entry?, hentries, hsnapshot, hmode]
  · rw [files, files, hsnapshot]
  · rw [sectionNames, sectionNames, hsnapshot]

/-- The options of every group. -/
def memberTables (r : Registry) : Table (Table Entry) :=
  r.groups.map fun _ m => m.entries

theorem get?_memberTables (r : Registry) (name : String) :
    r.memberTables.get? name = (r.entries? (some name)).toOption := by
  rw [memberTables, Table.get?_map, Registry.entries?]
  cases r.groups.get? name with
  | none => rfl
  | some m => rfl

theorem all_eq (r : Registry) :
    r.all = r.top.values.map (fun entry => (none, entry)) ++
      r.memberTables.toList.flatMap fun (name, entries) =>
        entries.values.map fun entry => (some name, entry) := by
  rw [all, memberTables, Table.map, List.flatMap_map]

namespace Agrees

variable (h : r.Agrees s)
include h

theorem entry? (dest : String) (group : Option String) :
    r.entry? dest group = s.entry? dest group := by
  simp only [h.entries?, Registry.entry?]

theorem memberTables : r.memberTables = s.memberTables := by
  refine Table.ext_get? fun name => ?_
  rw [get?_memberTables, get?_memberTables, h.entries?]

theorem read_installed (snapshot : Option Snapshot) (validating : Bool) (dest : String)
    (group : Option String) :
    Registry.read { r with snapshot, validating } dest group =
      Registry.read { s with snapshot, validating } dest group := by
  rw [Registry.read, Registry.read, entry?_installed r snapshot validating,
    entry?_installed s snapshot validating, h.entry?]

theorem contains_groups (name : String) : r.groups.contains name = s.groups.contains name := by
  have hname := congrArg (fun tables => tables.contains name) h.memberTables
  simp only [Registry.memberTables, Table.contains_map] at hname
  exact hname

theorem keys_groups : r.groups.keys = s.groups.keys := by
  have hkeys := congrArg Table.keys h.memberTables
  simp only [Registry.memberTables, Table.keys, Table.map, List.map_map] at hkeys
  exact hkeys

theorem all : r.all = s.all := by
  have htop : r.top = s.top := Except.ok.inj (h.entries? none)
  rw [all_eq, all_eq, htop, h.memberTables]

theorem readAs (shape : Shape) (dest : String) (group : Option String) :
    r.readAs shape dest group = s.readAs shape dest group := by
  rw [Registry.readAs, Registry.readAs, h.read]

theorem read_eq : r.read = s.read :=
  funext fun dest => funext fun group => h.read dest group

theorem table (group : String) : r.table group = s.table group := by
  rw [Registry.table, Registry.table, groupKeys?, groupKeys?, h.entries?, h.read_eq]

theorem readRecord (record : List (String × Shape)) (group : String) :
    r.readRecord record group = s.readRecord record group := by
  rw [Registry.readRecord, Registry.readRecord, h.table]

theorem place (key : String) : Report.place r key = Report.place s key := by
  simp only [Report.place, h.contains_groups]

theorem make (action : Action) :
    Report.make (m := Id) r.read r action = Report.make (m := Id) s.read s action := by
  cases action with
  | list => rw [Report.make, Report.make, h.all, h.read_eq]
  | sections => rw [Report.make, Report.make, h.sectionNames]
  | get key => simp only [Report.make, h.place, h.entry?, h.read_eq]

theorem ask (query : Query) : r.ask query = s.ask query := by
  cases query with
  | value dest group => rw [Registry.ask, Registry.ask, h.read]
  | valueAs shape dest group => rw [Registry.ask, Registry.ask, h.readAs]
  | table group => rw [Registry.ask, Registry.ask, h.table]
  | record fields group => rw [Registry.ask, Registry.ask, h.readRecord]
  | report action => rw [Registry.ask, Registry.ask, h.make]

theorem dump (level : Level) :
    Report.dump (m := Id) r.read r level = Report.dump (m := Id) s.read s level := by
  rw [Report.dump, Report.dump, h.read_eq, h.all, h.files]

theorem perform (host : Host) {operation : Operation} (hread : operation.isRead = true) :
    (r.perform host operation).1 = (s.perform host operation).1 := by
  cases operation with
  | read query => rw [Registry.perform, Registry.perform, h.ask]
  | dump level => rw [Registry.perform, Registry.perform, h.dump]
  | change change => cases hread
  | parse files validating => cases hread
  | reload files => cases hread
  | reloadFiles => cases hread

end Agrees

end Registry

namespace Config

/-- Configurations whose registries agree turn every read out alike, whatever their coherent memos
hold. -/
theorem perform_congr {config config' : Config} (h : config.Coherent) (h' : config'.Coherent)
    (hagrees : config.registry.Agrees config'.registry) (host : Host) {operation : Operation}
    (hread : operation.isRead = true) :
    (config.perform host operation).1 = (config'.perform host operation).1 := by
  rw [(matches_perform h host operation).answer, (matches_perform h' host operation).answer,
    hagrees.perform host hread]

end Config

end LayeredConfig
