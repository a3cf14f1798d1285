import LayeredConfig.Proofs.Masking
import LayeredConfig.Proofs.Precedence
import Mathlib.Data.List.Forall2

/-!
# Runs that differ in secrets

Two runs differ in secrets if their operations are equal once the values given
to secret options are masked, and the files that they meet assign the same
outside of some hidden places. Such runs lead to registries that are alike: equal
when they are masked, and with files in force in which every option that has no
name at a hidden place finds the same.

Two operations that look the same may still end differently: a parse that
refuses a secret value installs nothing, and a row of registrations stops where a
secret option is known with another default. `Registry.progress` says how far an
operation gets, and registries stay alike as long as both runs get equally far
(`Registry.alike_perform`).
-/

namespace LayeredConfig

/-- Whether an item assigns at a hidden place. A place is the normal form of the name of a section,
and a key. -/
def Item.isHidden (hidden : String → String → Bool) : Item → Bool
  | header _ => false
  | assignment name key _ => hidden (normalizeName name) key

/-- The items that do not assign at a hidden place. -/
def shownItems (hidden : String → String → Bool) (items : List Item) : List Item :=
  items.filter fun item => !item.isHidden hidden

/-- No name of the option is at a hidden place. -/
def Entry.Avoids (entry : Entry) (hidden : String → String → Bool) (group : Option String) :
    Prop :=
  ∀ key ∈ [entry.schema.dest, entry.schema.name],
    hidden (normalizeName (group.getD defaultSection)) key = false

/-- Two hosts fix paths alike, and what their files assign differs at hidden places only. -/
structure Host.Alike (hidden : String → String → Bool) (host host' : Host) : Prop where
  cwd : host.cwd = host'.cwd
  home : host.home = host'.home
  items : ∀ {path items items'}, host.HasItems path items → host'.HasItems path items' →
    shownItems hidden items = shownItems hidden items'

/-- Two snapshots are of the same files and give the same to every option without a name at a
hidden place. -/
structure Snapshot.Alike (hidden : String → String → Bool) (snapshot snapshot' : Snapshot) :
    Prop where
  files : snapshot.files = snapshot'.files
  fileValue? : ∀ {entry : Entry} {group}, entry.Avoids hidden group →
    entry.fileValue? group (some snapshot) = entry.fileValue? group (some snapshot')

/-- Two registries are equal when they are masked, and their files are alike. -/
structure Registry.Alike (hidden : String → String → Bool) (r r' : Registry) : Prop where
  masked : r.masked = r'.masked
  snapshot : Option.Rel (Snapshot.Alike hidden) r.snapshot r'.snapshot

section Files

variable {hidden : String → String → Bool} {entry : Entry} {group : Option String}

theorem textsUnder_shownItems {key : String}
    (h : hidden (normalizeName (group.getD defaultSection)) key = false) (items : List Item) :
    Entry.textsUnder group key (shownItems hidden items) = Entry.textsUnder group key items := by
  rw [Entry.textsUnder, Entry.textsUnder, valuesUnder, valuesUnder, shownItems,
    List.filterMap_filter]
  congr 1
  funext item
  cases item with
  | header name => rfl
  | assignment name k value =>
    rw [Item.valueFor?]
    by_cases hplace : SameSection name (group.getD defaultSection) ∧ k = key
    · obtain ⟨hname, rfl⟩ := hplace
      simp [Item.isHidden, normalizeName_eq_iff.2 hname, h]
    · simp [hplace]

theorem textsIn_eq (h : entry.Avoids hidden group) {items items' : List Item}
    (hitems : shownItems hidden items = shownItems hidden items') :
    entry.textsIn group items = entry.textsIn group items' := by
  have hkey : ∀ key ∈ [entry.schema.dest, entry.schema.name],
      Entry.textsUnder group key items = Entry.textsUnder group key items' := by
    intro key hkey
    rw [← textsUnder_shownItems (h key hkey), hitems, textsUnder_shownItems (h key hkey)]
  rw [Entry.textsIn, Entry.textsIn, hkey entry.schema.dest (by simp),
    hkey entry.schema.name (by simp)]

theorem Host.Alike.fixPath {host host' : Host} (h : host.Alike hidden host') (path : String) :
    host.fixPath path = host'.fixPath path := by
  rw [Host.fixPath, Host.fixPath, h.cwd, h.home]

/-- Hosts on which every path leads to a file with the same items, but at hidden places. -/
theorem Host.Alike.of_content {host host' : Host} {content content' : String}
    {items items' : List Item} (hcwd : host.cwd = host'.cwd) (hhome : host.home = host'.home)
    (hread : ∀ path, host.read path = .content content)
    (hread' : ∀ path, host'.read path = .content content')
    (hitems : readItems content = .ok items) (hitems' : readItems content' = .ok items')
    (hshown : shownItems hidden items = shownItems hidden items') : host.Alike hidden host' := by
  refine ⟨hcwd, hhome, fun {path found found'} hfound hfound' => ?_⟩
  obtain ⟨text, htext, hfound⟩ := hfound
  obtain ⟨text', htext', hfound'⟩ := hfound'
  rw [hread] at htext
  rw [hread'] at htext'
  cases htext
  cases htext'
  rw [hitems] at hfound
  rw [hitems'] at hfound'
  cases hfound
  cases hfound'
  exact hshown

theorem Host.Alike.refl (hidden : String → String → Bool) (host : Host) :
    host.Alike hidden host := by
  refine ⟨rfl, rfl, fun {path items items'} hitems hitems' => ?_⟩
  rw [← host.itemsAt_of_hasItems hitems, host.itemsAt_of_hasItems hitems']

/-- Passes over the same files that both succeed take snapshots that are alike. -/
theorem Host.Alike.snapshot {host host' : Host} (h : host.Alike hidden host')
    {files : List String}
    (hitems : ∀ file ∈ files,
      host.HasItems (host.fixPath file) (host.itemsAt (host.fixPath file)))
    (hitems' : ∀ file ∈ files,
      host'.HasItems (host'.fixPath file) (host'.itemsAt (host'.fixPath file))) :
    Snapshot.Alike hidden (.ofReadings (host.readings files))
      (.ofReadings (host'.readings files)) := by
  refine ⟨?_, fun {entry group} havoids => ?_⟩
  · simp [Snapshot.ofReadings, Host.readings, h.fixPath]
  · have hlayers := Snapshot.layers_ofReadings host fun file hfile => ⟨_, hitems file hfile⟩
    have hlayers' := Snapshot.layers_ofReadings host' fun file hfile => ⟨_, hitems' file hfile⟩
    have htexts : (files.map fun file =>
          entry.textsIn group (host.itemsAt (host.fixPath file))) =
        files.map fun file => entry.textsIn group (host'.itemsAt (host'.fixPath file)) := by
      refine List.map_congr_left fun file hfile => textsIn_eq havoids ?_
      have hsame := hitems' file hfile
      rw [← h.fixPath] at hsame ⊢
      exact h.items (hitems file hfile) hsame
    cases hmulti : entry.schema.multi with
    | true =>
      rw [Entry.fileValue?_collect hlayers hmulti, Entry.fileValue?_collect hlayers' hmulti,
        htexts]
    | false =>
      rw [Entry.fileValue?_single hlayers hmulti, Entry.fileValue?_single hlayers' hmulti,
        htexts]

end Files

/-- The files that an operation takes in, and in which mode. -/
def Operation.intake (r : Registry) : Operation → Option (List String × Bool)
  | parse files validating => some (files, validating)
  | reload files => some (files, r.validating)
  | reloadFiles => some (r.files, r.validating)
  | _ => none

/-- An operation without the values that it gives to secret options. -/
def Operation.masked (r : Registry) : Operation → Operation
  | change c => change (c.masked r)
  | operation => operation

namespace Registry

/-- How far an operation gets: how many options of a row are registered, and whether files are
taken in. -/
def progress (r : Registry) (host : Host) : Operation → Nat
  | .change change => r.reach change
  | .read _ | .dump _ => 0
  | .parse files validating => (r.parse host files validating).1.isOk.toNat
  | .reload files => (r.reload host files).1.toNat
  | .reloadFiles => (r.reload host r.files).1.toNat

/-- The operations of a run without the values that they give to secret options. -/
def maskedRun (r : Registry) : List Step → List Operation
  | [] => []
  | step :: rest =>
    step.operation.masked r :: (r.perform step.host step.operation).2.maskedRun rest

/-- How far each operation of a run gets. -/
def progressRun (r : Registry) : List Step → List Nat
  | [] => []
  | step :: rest =>
    r.progress step.host step.operation ::
      (r.perform step.host step.operation).2.progressRun rest

variable {hidden : String → String → Bool} {r r' : Registry} {host host' : Host}

theorem perform_of_intake {operation : Operation} {files : List String} {validating : Bool}
    (h : operation.intake r = some (files, validating)) :
    (r.perform host operation).2 = (r.parse host files validating).2 := by
  cases operation with
  | parse files validating =>
    cases h
    rfl
  | reload files =>
    cases h
    exact reload_registry r host files
  | reloadFiles =>
    cases h
    exact reload_registry r host r.files
  | change change => cases h
  | read query => cases h
  | dump level => cases h

theorem progress_of_intake {operation : Operation} {files : List String} {validating : Bool}
    (h : operation.intake r = some (files, validating)) :
    r.progress host operation = (r.parse host files validating).1.isOk.toNat := by
  have hreload : ∀ files, (r.reload host files).1 = (r.parse host files r.validating).1.isOk := by
    intro files
    rw [Registry.reload]
    obtain ⟨e, hcase⟩ | ⟨snapshot, -, -, hcase⟩ := parse_cases r host files r.validating
    · rw [hcase]
      rfl
    · rw [hcase]
      rfl
  cases operation with
  | parse files validating =>
    cases h
    rfl
  | reload files =>
    cases h
    rw [progress, hreload]
  | reloadFiles =>
    cases h
    rw [progress, hreload]
  | change change => cases h
  | read query => cases h
  | dump level => cases h

theorem isDrop_masked (r : Registry) (change : Change) :
    (change.masked r).isDrop = change.isDrop := by
  cases change with
  | _ => rfl

namespace Alike

theorem files (h : r.Alike hidden r') : r.files = r'.files := by
  have hsnapshot := h.snapshot
  rw [Registry.files, Registry.files]
  generalize r.snapshot = snapshot at hsnapshot ⊢
  generalize r'.snapshot = snapshot' at hsnapshot ⊢
  cases hsnapshot with
  | none => rfl
  | some halike => exact halike.files

theorem validating (h : r.Alike hidden r') : r.validating = r'.validating := by
  rw [← validating_masked, h.masked, validating_masked]

theorem intake (h : r.Alike hidden r') {operation operation' : Operation}
    (hoperation : operation.masked r = operation'.masked r') :
    operation.intake r = operation'.intake r' := by
  have hmasked : ∀ (s : Registry) (op : Operation), (op.masked s).intake s = op.intake s := by
    intro s op
    cases op with
    | _ => rfl
  have hintake : ∀ op : Operation, op.intake r = op.intake r' := by
    intro op
    cases op with
    | reload files => rw [Operation.intake, Operation.intake, h.validating]
    | reloadFiles => rw [Operation.intake, Operation.intake, h.validating, h.files]
    | _ => rfl
  rw [← hmasked r, hoperation, hintake, hmasked]

theorem parse (h : r.Alike hidden r') (hhost : host.Alike hidden host') {files : List String}
    {validating : Bool}
    (hprogress : (r.parse host files validating).1.isOk.toNat =
      (r'.parse host' files validating).1.isOk.toNat) :
    (r.parse host files validating).2.Alike hidden (r'.parse host' files validating).2 := by
  obtain ⟨e, hcase⟩ | ⟨snapshot, hload, hcheck, hcase⟩ := parse_cases r host files validating
  · obtain ⟨e', hcase'⟩ | ⟨snapshot', -, -, hcase'⟩ := parse_cases r' host' files validating
    · rw [hcase, hcase']
      exact h
    · rw [hcase, hcase'] at hprogress
      cases hprogress
  · obtain ⟨e', hcase'⟩ | ⟨snapshot', hload', hcheck', hcase'⟩ :=
      parse_cases r' host' files validating
    · rw [hcase, hcase'] at hprogress
      cases hprogress
    · obtain ⟨rfl, hitems⟩ := Snapshot.hasItems_of_load hload (checkAccess_of_check hcheck)
      obtain ⟨rfl, hitems'⟩ := Snapshot.hasItems_of_load hload' (checkAccess_of_check hcheck')
      rw [hcase, hcase']
      have hmasked := h.masked
      simp only [Registry.masked, Registry.mk.injEq] at hmasked
      refine ⟨?_, .some (hhost.snapshot hitems hitems')⟩
      simp only [Registry.masked, hmasked.1, hmasked.2.1]

theorem apply (h : r.Alike hidden r') {change change' : Change}
    (hchange : change.masked r = change'.masked r') (hreach : r.reach change = r'.reach change') :
    (r.apply change).2.Alike hidden (r'.apply change').2 := by
  refine ⟨masked_apply h.masked hchange hreach, ?_⟩
  have hdrop : change.isDrop = change'.isDrop := by
    rw [← isDrop_masked r, hchange, isDrop_masked]
  have hsnapshot : ∀ (s : Registry) (c : Change),
      (s.apply c).2.snapshot = if c.isDrop then none else s.snapshot := by
    intro s c
    have hinstalled := congrArg Prod.fst (installed_apply s c)
    rw [apply_ite Prod.fst] at hinstalled
    exact hinstalled
  rw [hsnapshot, hsnapshot, hdrop]
  split
  · exact .none
  · exact h.snapshot

end Alike

/-- Operations that are equal when they are masked and get equally far keep registries alike. -/
theorem alike_perform (h : r.Alike hidden r') (hhost : host.Alike hidden host')
    {operation operation' : Operation}
    (hoperation : operation.masked r = operation'.masked r')
    (hprogress : r.progress host operation = r'.progress host' operation') :
    (r.perform host operation).2.Alike hidden (r'.perform host' operation').2 := by
  have hintake := h.intake hoperation
  -- Parses and reloads take files in; no other operation looks at the host.
  cases htaken : operation.intake r with
  | some taken =>
    obtain ⟨files, validating⟩ := taken
    rw [htaken] at hintake
    rw [progress_of_intake htaken, progress_of_intake hintake.symm] at hprogress
    rw [perform_of_intake htaken, perform_of_intake hintake.symm]
    exact h.parse hhost hprogress
  | none =>
    cases operation with
    | change change =>
      cases operation' with
      | change change' => exact h.apply (Operation.change.inj hoperation) hprogress
      | _ => cases hoperation
    | read query =>
      cases operation' with
      | read query' => exact h
      | _ => cases hoperation
    | dump level =>
      cases operation' with
      | dump level' => exact h
      | _ => cases hoperation
    | _ => cases htaken

/-- Runs that differ in secrets and get equally far keep registries alike. -/
theorem alike_run (h : r.Alike hidden r') {history history' : List Step}
    (hhosts : List.Forall₂ (fun step step' => step.host.Alike hidden step'.host) history history')
    (hoperations : r.maskedRun history = r'.maskedRun history')
    (hprogress : r.progressRun history = r'.progressRun history') :
    (r.run history).2.Alike hidden (r'.run history').2 := by
  induction hhosts generalizing r r' with
  | nil => exact h
  | cons hhost _ ih =>
    obtain ⟨hoperation, hoperations⟩ := List.cons.inj hoperations
    obtain ⟨hstep, hprogress⟩ := List.cons.inj hprogress
    exact ih (alike_perform h hhost hoperation hstep) hoperations hprogress

theorem alike_empty (hidden : String → String → Bool) : Alike hidden {} {} :=
  ⟨rfl, .none⟩

end Registry

end LayeredConfig
