import LayeredConfig.Snapshot

/-!
# One pass over files

What a pass over files makes of them, said of each file by itself: which files
make it fail, which are missing or guarded, and what the others assign. A pass
that fails does so with the first failure in the order of the list, whatever
else is wrong with the files before it. The snapshot of any other pass names
exactly the missing files and exactly the guarded ones, in that order.
-/

namespace LayeredConfig

namespace Host

/-- Why the file at a path makes a pass over files fail, if it does. -/
def failure? (host : Host) (path : String) : Option ConfigError :=
  match host.read path with
  | .notFound | .denied => none
  | .failed cause => some (.unreadable path cause)
  | .content content =>
    match readItems content with
    | .ok _ => none
    | .error fault => some (.parse path fault)

/-- The items of the file at a path; none if it is not a readable, well-formed file. -/
def itemsAt (host : Host) (path : String) : List Item :=
  match host.read path with
  | .content content =>
    match readItems content with
    | .ok items => items
    | .error _ => []
  | _ => []

/-- The file at a path is readable and well formed, and has these items. -/
def HasItems (host : Host) (path : String) (items : List Item) : Prop :=
  ∃ content, host.read path = .content content ∧ readItems content = .ok items

variable (host : Host) (path : String) (files : List String)

/-- How taking in the file at a path turns out. -/
inductive Reads (host : Host) (path : String) : Reading → Prop
  | missing (hread : host.read path = .notFound) : Reads host path .missing
  | denied (hread : host.read path = .denied) : Reads host path .denied
  | unreadable {cause : ReadFailure} (hread : host.read path = .failed cause) :
      Reads host path (.failed (.unreadable path cause))
  | malformed {content : String} {fault : Fault} (hread : host.read path = .content content)
      (hitems : readItems content = .error fault) :
      Reads host path (.failed (.parse path fault))
  | source {content : String} {items : List Item} (hread : host.read path = .content content)
      (hitems : readItems content = .ok items) :
      Reads host path (.source (Source.ofItems path items))

theorem reads_reading : host.Reads path (host.reading path) := by
  rw [reading]
  cases hread : host.read path with
  | notFound => exact .missing hread
  | denied => exact .denied hread
  | failed cause => exact .unreadable hread
  | content content =>
    simp only [Source.read]
    cases hitems : readItems content with
    | ok items => exact .source hread hitems
    | error fault => exact .malformed hread hitems

theorem failure?_reading : (host.reading path).failure? = host.failure? path := by
  have hreads := reads_reading host path
  generalize host.reading path = reading at hreads ⊢
  cases hreads with
  | missing hread => simp [Reading.failure?, failure?, hread]
  | denied hread => simp [Reading.failure?, failure?, hread]
  | unreadable hread => simp [Reading.failure?, failure?, hread]
  | malformed hread hitems => simp [Reading.failure?, failure?, hread, hitems]
  | source hread hitems => simp [Reading.failure?, failure?, hread, hitems]

theorem isMissing_reading :
    (host.reading path).isMissing = decide (host.read path = .notFound) := by
  have hreads := reads_reading host path
  generalize host.reading path = reading at hreads ⊢
  cases hreads with
  | missing hread => simp [Reading.isMissing, hread]
  | denied hread => simp [Reading.isMissing, hread]
  | unreadable hread => simp [Reading.isMissing, hread]
  | malformed hread hitems => simp [Reading.isMissing, hread]
  | source hread hitems => simp [Reading.isMissing, hread]

theorem isDenied_reading :
    (host.reading path).isDenied = decide (host.read path = .denied) := by
  have hreads := reads_reading host path
  generalize host.reading path = reading at hreads ⊢
  cases hreads with
  | missing hread => simp [Reading.isDenied, hread]
  | denied hread => simp [Reading.isDenied, hread]
  | unreadable hread => simp [Reading.isDenied, hread]
  | malformed hread hitems => simp [Reading.isDenied, hread]
  | source hread hitems => simp [Reading.isDenied, hread]

theorem source?_reading {path : String} {items : List Item} (h : host.HasItems path items) :
    (host.reading path).source? = some (Source.ofItems path items) := by
  obtain ⟨content, hread, hitems⟩ := h
  have hsource : Source.read path content = .ok (Source.ofItems path items) := by
    rw [Source.read, hitems]
    rfl
  simp [reading, hread, hsource, Reading.source?]

theorem itemsAt_of_hasItems {path : String} {items : List Item} (h : host.HasItems path items) :
    host.itemsAt path = items := by
  obtain ⟨content, hread, hitems⟩ := h
  simp [itemsAt, hread, hitems]

theorem hasItems_of_healthy {path : String} (hfailure : host.failure? path = none)
    (hmissing : host.read path ≠ .notFound) (hdenied : host.read path ≠ .denied) :
    host.HasItems path (host.itemsAt path) := by
  cases hread : host.read path with
  | notFound => exact absurd hread hmissing
  | denied => exact absurd hread hdenied
  | failed cause => simp [failure?, hread] at hfailure
  | content content =>
    cases hitems : readItems content with
    | error fault => simp [failure?, hread, hitems] at hfailure
    | ok items =>
      have h : host.HasItems path items := ⟨content, hread, hitems⟩
      rw [itemsAt_of_hasItems host h]
      exact h

end Host

namespace Snapshot

variable (host : Host) (files : List String)

/-- A pass fails with the first failure in the order of the files. -/
theorem load_eq :
    load host files =
      match ((files.map host.fixPath).filterMap host.failure?).head? with
      | some cause => .error cause
      | none => .ok (ofReadings (host.readings files)) := by
  have hfirst : (host.readings files).findSome? (fun r => r.2.failure?) =
      ((files.map host.fixPath).filterMap host.failure?).head? := by
    rw [List.head?_filterMap, Host.readings, List.findSome?_map, List.findSome?_map]
    congr 1
    funext file
    exact host.failure?_reading (host.fixPath file)
  rw [load]
  cases hhead : ((files.map host.fixPath).filterMap host.failure?).head? with
  | none =>
    rw [hhead] at hfirst
    simp only [hfirst]
  | some cause =>
    rw [hhead] at hfirst
    simp only [hfirst]

theorem missing_ofReadings :
    (ofReadings (host.readings files)).missing =
      (files.map host.fixPath).filter fun path => host.read path = .notFound := by
  simp only [ofReadings, Host.readings, List.filter_map, List.map_map, Function.comp_def,
    Host.isMissing_reading]

theorem denied_ofReadings :
    (ofReadings (host.readings files)).denied =
      (files.map host.fixPath).filter fun path => host.read path = .denied := by
  simp only [ofReadings, Host.readings, List.filter_map, List.map_map, Function.comp_def,
    Host.isDenied_reading]

/-- The layers of a pass over readable, well-formed files are these files, the last on top. -/
theorem layers_ofReadings {files : List String}
    (h : ∀ file ∈ files, ∃ items, host.HasItems (host.fixPath file) items) :
    (ofReadings (host.readings files)).layers =
      Layers.ofReading (files.map fun file =>
        Source.ofItems (host.fixPath file) (host.itemsAt (host.fixPath file))) := by
  simp only [ofReadings, Host.readings, List.filterMap_map, Function.comp_def]
  congr 1
  induction files with
  | nil => rfl
  | cons file rest ih =>
    obtain ⟨items, hitems⟩ := h file List.mem_cons_self
    have hsource : (host.reading (host.fixPath file)).source? =
        some (Source.ofItems (host.fixPath file) (host.itemsAt (host.fixPath file))) := by
      rw [Host.source?_reading host hitems, Host.itemsAt_of_hasItems host hitems]
    have hrest := ih fun file hfile => h file (List.mem_cons_of_mem _ hfile)
    simp only [List.filterMap_cons, hsource, List.map_cons, hrest]

/-- In a pass that succeeds and whose snapshot passes the access check, every file is readable and
well formed. -/
theorem hasItems_of_load {host : Host} {files : List String} {snapshot : Snapshot}
    (hload : load host files = .ok snapshot) (haccess : snapshot.checkAccess = .ok ()) :
    snapshot = ofReadings (host.readings files) ∧
      ∀ file ∈ files,
        host.HasItems (host.fixPath file) (host.itemsAt (host.fixPath file)) := by
  rw [load_eq] at hload
  split at hload
  · cases hload
  · next hnone =>
    cases hload
    refine ⟨rfl, fun file hfile => ?_⟩
    have hpath : host.fixPath file ∈ files.map host.fixPath := List.mem_map_of_mem hfile
    rw [List.head?_filterMap, List.findSome?_eq_none_iff] at hnone
    rw [checkAccess, missing_ofReadings, denied_ofReadings] at haccess
    split at haccess
    · cases haccess
    · next hmissing =>
      split at haccess
      · cases haccess
      · next hdenied =>
        refine Host.hasItems_of_healthy host (hnone _ hpath) ?_ ?_
        · intro hread
          exact hmissing (List.ne_nil_of_mem (List.mem_filter.2 ⟨hpath, by simpa using hread⟩))
        · intro hread
          exact hdenied (List.ne_nil_of_mem (List.mem_filter.2 ⟨hpath, by simpa using hread⟩))

end Snapshot

end LayeredConfig
