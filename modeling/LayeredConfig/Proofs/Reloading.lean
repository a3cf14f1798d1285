import LayeredConfig.Proofs.Agreement
import LayeredConfig.Proofs.FixedPath

/-!
# Reloading unchanged files

The files in force are kept under their fixed paths, and a reload hands these
paths to the parse again. As fixing leaves them alone, the same files are read,
and if they read as they did, they make the same snapshot, which either passes
every check and is installed once more, or does not pass, and the one in force
stays. With no files in force there is nothing to read, and the empty snapshot
that a reload may install gives no option a value.
-/

namespace LayeredConfig

theorem Host.reading_congr {host host' : Host} {path : String}
    (h : host.read path = host'.read path) : host.reading path = host'.reading path := by
  rw [Host.reading, Host.reading, h]

namespace Snapshot

theorem eq_ofReadings_of_load {host : Host} {files : List String} {snapshot : Snapshot}
    (h : load host files = .ok snapshot) : snapshot = ofReadings (host.readings files) := by
  rw [load] at h
  split at h
  · cases h
  · cases h
    rfl

/-- Reading fixed paths again, where the files are as they were, gives the same readings. -/
theorem readings_again {origin host : Host} {files : List String}
    (hcwd : ∀ cwd ∈ origin.cwd, Path.IsTidy cwd.toList)
    (hlost : origin.cwd = none → ∀ file ∈ files, (origin.fixPath file).toList.head? = some '/')
    (h : ∀ file ∈ files, host.read (origin.fixPath file) = origin.read (origin.fixPath file)) :
    host.readings (files.map origin.fixPath) = origin.readings files := by
  rw [Host.readings, List.map_map, Host.readings]
  refine List.map_congr_left fun file hfile => ?_
  have hpath : host.fixPath (origin.fixPath file) = origin.fixPath file :=
    Path.fix_fix hcwd (fun hnone => hlost hnone file hfile) host.home host.cwd
  rw [Function.comp_apply, hpath, Host.reading_congr (h file hfile)]

theorem value?_empty (names : List (Option String × String)) (collect : Bool) :
    ({} : Snapshot).value? names collect = none := by
  cases collect with
  | false => rfl
  | true => rfl

end Snapshot

theorem Entry.resolve_empty (entry : Entry) (group : Option String) (validating : Bool) :
    entry.resolve group (some {}) validating = entry.resolve group none validating := by
  have hvalue : entry.fileValue? group (some {}) = entry.fileValue? group none :=
    Snapshot.value?_empty (entry.names group) entry.schema.multi
  rw [resolve, resolve, hvalue]

namespace Registry

variable {r : Registry}

theorem agrees_empty (h : r.snapshot = none) : Agrees { r with snapshot := some {} } r where
  entries? := fun group => by
    cases group with
    | none => rfl
    | some name => rfl
  read := fun dest group => by
    rw [read, read, entry?_installed r (some {}) r.validating, h]
    simp only [Entry.resolve_empty]
  files := by rw [files, files, h]
  sectionNames := by
    rw [sectionNames, sectionNames, h]
    rfl

/-- No files are in force, or those that are have not changed on a host since a parse took them in.
The current directory was then one that a system reports; where it was not known, the files have
absolute paths. -/
def Unchanged (r : Registry) (host : Host) : Prop :=
  r.snapshot = none ∨ ∃ origin files validating, r.Installed origin files validating ∧
    (∀ cwd ∈ origin.cwd, Path.IsTidy cwd.toList) ∧
    (origin.cwd = none → ∀ file ∈ r.files, file.toList.head? = some '/') ∧
    ∀ file ∈ r.files, host.read file = origin.read file

/-- A reload of unchanged files leaves a registry that answers alike. -/
theorem Unchanged.agrees_reload {host : Host} (h : r.Unchanged host) :
    (r.reload host r.files).2.Agrees r := by
  rw [reload_registry]
  obtain ⟨e, hcase⟩ | ⟨snapshot, hload, -, hcase⟩ := parse_cases r host r.files r.validating
  · rw [hcase]
    exact .refl r
  · have hsnapshot := Snapshot.eq_ofReadings_of_load hload
    rw [hcase]
    obtain hnone | ⟨origin, files, validating, hinstalled, hcwd, hlost, hread⟩ := h
    · have hempty : snapshot = {} := by
        rw [hsnapshot, files, hnone]
        rfl
      rw [hempty]
      exact agrees_empty hnone
    · obtain ⟨-, taken, htaken, -, hforce, -⟩ := hinstalled.snapshot
      have hfirst := Snapshot.eq_ofReadings_of_load htaken
      have hfiles : r.files = files.map origin.fixPath := by
        rw [Registry.files, hforce, hfirst]
        simp [Snapshot.ofReadings, Host.readings]
      have hagain : snapshot = taken := by
        simp only [hfiles, List.forall_mem_map] at hread hlost
        rw [hsnapshot, hfiles, Snapshot.readings_again hcwd hlost hread, hfirst]
      have hsame : { r with snapshot := some snapshot, validating := r.validating } = r := by
        rw [hagain, ← hforce]
      rw [hsame]
      exact .refl r

end Registry

namespace Sample

/-- A host with one file, at work in the directory of that file. -/
def siteHost : Host :=
  (({} : FileTree).add "/srv/site.conf" (.file "[API]\nport = 90\n".toUTF8)).host "/srv" "/root"

/-- A file is put in force by a relative path; then an option is registered that must have a value
and has none. -/
def filing : List Step :=
  [registering port (some "api"), ⟨siteHost, .parse ["./site.conf"] true⟩,
    registering { Schema.ofName "token" Kind.text with required := true } none]

end Sample

namespace Config

/-- Reloading files that have not changed is invisible, whatever was registered, removed, replaced
or locked since they were parsed, wherever the current directory is by now, and whatever the reload
answers: the files and the sections in force are the same, and every read turns out as it would
have without the reload, values, listings and dumps alike. -/
theorem reload_unnoticed (history : List Step) (host : Host)
    (h : (after history).registry.Unchanged host) :
    let reloaded := ((after history).perform host .reloadFiles).2
    reloaded.registry.files = (after history).registry.files ∧
      reloaded.registry.sectionNames = (after history).registry.sectionNames ∧
      ∀ (later : Host) (operation : Operation), operation.isRead = true →
        (reloaded.perform later operation).1 = ((after history).perform later operation).1 := by
  have hmatches := matches_perform (coherent_after history) host .reloadFiles
  have hagrees : ((after history).perform host .reloadFiles).2.registry.Agrees
      (after history).registry := by
    rw [hmatches.registry]
    exact h.agrees_reload
  refine ⟨hagrees.files, hagrees.sectionNames, fun later operation hread => ?_⟩
  exact perform_congr hmatches.coherent (coherent_after history) hagrees later hread

open Sample in
/-- A reload from another directory, which is refused because an option lacks its value. -/
theorem reload_unnoticed_elsewhere :
    let elsewhere : Host := { siteHost with cwd := some "/", home := none }
    (after filing).registry.Unchanged elsewhere ∧
      (after filing).registry.files = ["/srv/site.conf"] ∧
      ((after filing).perform elsewhere .reloadFiles).1.answer = .ok (.truth false) ∧
      (((after filing).perform elsewhere .reloadFiles).2.perform elsewhere
        (.read (.value "port" (some "api")))).1.answer = .ok (.value (some (.integer 90))) := by
  have hinstalled : (after filing).registry.Installed siteHost ["./site.conf"] true :=
    ⟨(after (filing.take 1)).registry, rfl, rfl⟩
  have htidy : ∀ cwd ∈ siteHost.cwd, Path.IsTidy cwd.toList := by
    rintro cwd hcwd
    obtain rfl := Option.some.inj hcwd
    exact ⟨rfl, by decide, by decide⟩
  have hknown : siteHost.cwd ≠ none := by decide
  have hunchanged :
      (after filing).registry.Unchanged { siteHost with cwd := some "/", home := none } :=
    .inr ⟨siteHost, ["./site.conf"], true, hinstalled, htidy, fun hnone => absurd hnone hknown,
      fun _ _ => rfl⟩
  refine ⟨hunchanged, rfl, rfl, ?_⟩
  rw [(reload_unnoticed filing _ hunchanged).2.2 _ (.read (.value "port" (some "api"))) rfl]
  rfl

end Config

end LayeredConfig
