import LayeredConfig.Proofs.Invariant

/-!
# The files in force

What a parse installs is the snapshot of its files and its mode. Both stay as
they are until the next parse that succeeds, or until a `clear` or a `reset`
drops them: no other change of a registry touches them. In every registry that a
run leads to, there are no files in force, or they are those of a parse that
succeeded.
-/

namespace LayeredConfig

namespace Registry

variable {r : Registry}

/-- The files in force and the mode. -/
def installed (r : Registry) : Option Snapshot × Bool :=
  (r.snapshot, r.validating)

/-- A parse that succeeds has installed these files, as they were on a host, and this mode. -/
def Installed (r : Registry) (host : Host) (files : List String) (validating : Bool) : Prop :=
  ∃ before : Registry, (before.parse host files validating).1 = .ok () ∧
    r.installed = (before.parse host files validating).2.installed

theorem Installed.snapshot {host : Host} {files : List String} {validating : Bool}
    (h : r.Installed host files validating) :
    ∃ (before : Registry) (snapshot : Snapshot), Snapshot.load host files = .ok snapshot ∧
      before.check snapshot validating = .ok () ∧ r.snapshot = some snapshot ∧
      r.validating = validating := by
  obtain ⟨before, hparse, hinstalled⟩ := h
  obtain ⟨snapshot, hload, hcheck, hafter⟩ := parse_ok hparse
  rw [hafter] at hinstalled
  obtain ⟨hsnapshot, hmode⟩ := Prod.mk.inj hinstalled
  exact ⟨before, snapshot, hload, hcheck, hsnapshot, hmode⟩

@[simp] theorem installed_setEntries (r : Registry) (group : Option String)
    (entries : Table Entry) : (r.setEntries group entries).installed = r.installed := by
  cases group with
  | none => rfl
  | some name =>
    rw [setEntries]
    split
    · rfl
    · rfl

@[simp] theorem installed_ensure (r : Registry) (group : Group) :
    (r.ensure group).installed = r.installed := by
  rw [ensure]
  split
  · rfl
  · rfl

@[simp] theorem installed_registerAt (r : Registry) (schema : Schema) (target : Option Group) :
    (r.registerAt schema target).2.installed = r.installed := by
  have hending := registers_registerAt r schema target
  generalize r.registerAt schema target = result at hending ⊢
  cases hending with
  | reserved hname => rfl
  | known hname hentry hsame => rfl
  | duplicate hname hentry hother => rfl
  | added hname hfree hentries =>
    rw [installed_setEntries]
    cases target with
    | none => rfl
    | some group => exact installed_ensure r group

@[simp] theorem installed_unregister (r : Registry) (schemas : List Schema)
    (group : Option String) : (r.unregister schemas group).2.installed = r.installed := by
  obtain ⟨e, -, hcase⟩ | ⟨entries, -, hcase⟩ := unregister_cases r schemas group
  · rw [hcase]
  · rw [hcase, installed_setEntries]

@[simp] theorem installed_modify (r : Registry) (dest : String) (group : Option String)
    (f : Entry → Entry) : (r.modify dest group f).2.installed = r.installed := by
  obtain ⟨e, -, hcase⟩ | ⟨entries, entry, -, -, hcase⟩ := modify_cases r dest group f
  · rw [hcase]
  · rw [hcase, installed_setEntries]

theorem linked_installed : Linked fun r s => s.installed = r.installed where
  refl := fun _ => rfl
  trans := fun hrs hst => hst.trans hrs
  ensure := installed_ensure
  registerAt := installed_registerAt
  unregister := installed_unregister
  modify := fun r dest group f _ => installed_modify r dest group f

/-- Of all changes only `clear` and `reset` touch the files in force and the mode. -/
theorem installed_apply (r : Registry) (change : Change) :
    (r.apply change).2.installed = if change.isDrop then (none, false) else r.installed := by
  cases hdrop : change.isDrop with
  | false => exact linked_installed.apply r hdrop
  | true =>
    cases change with
    | clear => rfl
    | reset => rfl
    | _ => cases hdrop

/-- No files are in force, or those of a parse that succeeded. -/
def HasParsed (r : Registry) : Prop :=
  r.installed = (none, false) ∨ ∃ host files validating, r.Installed host files validating

theorem HasParsed.of_installed_eq {s : Registry} (h : r.HasParsed)
    (heq : s.installed = r.installed) : s.HasParsed := by
  rcases h with hnone | ⟨host, files, validating, before, hparse, hinstalled⟩
  · exact .inl (heq.trans hnone)
  · exact .inr ⟨host, files, validating, before, hparse, heq.trans hinstalled⟩

theorem HasParsed.parse (h : r.HasParsed) (host : Host) (files : List String)
    (validating : Bool) : (r.parse host files validating).2.HasParsed := by
  cases hparse : (r.parse host files validating).1 with
  | error e =>
    rw [parse_error hparse]
    exact h
  | ok _ => exact .inr ⟨host, files, validating, r, hparse, rfl⟩

theorem invariant_hasParsed : Invariant HasParsed where
  linked := linked_installed.carries fun heq h => h.of_installed_eq heq
  clear := fun _ => .inl rfl
  reset := fun _ => .inl rfl
  parse := fun h => h.parse _ _ _

end Registry

namespace Config

/-- On every run the files in force, if there are any, are those of a parse that succeeded. -/
theorem hasParsed_after (history : List Step) : (after history).registry.HasParsed :=
  Registry.invariant_hasParsed.after (.inl rfl) history

end Config

end LayeredConfig
