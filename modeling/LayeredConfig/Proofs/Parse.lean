import LayeredConfig.Operation

/-!
# What a parse can do

A parse either fails and gives the registry back, or takes a snapshot that
passes every check and changes the files and the mode in force, and nothing
else. A reload does the same in the mode in force.
-/

namespace LayeredConfig.Registry

variable {r : Registry} {host : Host} {files : List String} {validating : Bool}

theorem parse_cases (r : Registry) (host : Host) (files : List String) (validating : Bool) :
    (∃ e, r.parse host files validating = (.error e, r)) ∨
      ∃ snapshot, Snapshot.load host files = .ok snapshot ∧
        r.check snapshot validating = .ok () ∧
        r.parse host files validating =
          (.ok (), { r with snapshot := some snapshot, validating }) := by
  rw [parse]
  cases hload : Snapshot.load host files with
  | error e => exact .inl ⟨e, rfl⟩
  | ok snapshot =>
    cases hcheck : r.check snapshot validating with
    | error e => exact .inl ⟨e, by simp only [hcheck]⟩
    | ok _ => exact .inr ⟨snapshot, rfl, hcheck, by simp only [hcheck]⟩

theorem parse_error {e : ConfigError} (h : (r.parse host files validating).1 = .error e) :
    (r.parse host files validating).2 = r := by
  obtain ⟨e', hparse⟩ | ⟨snapshot, -, -, hparse⟩ := parse_cases r host files validating
  · rw [hparse]
  · rw [hparse] at h
    cases h

theorem checkAccess_of_check {snapshot : Snapshot} (h : r.check snapshot validating = .ok ()) :
    snapshot.checkAccess = .ok () := by
  rw [check] at h
  cases haccess : snapshot.checkAccess with
  | ok _ => rfl
  | error e =>
    rw [haccess] at h
    cases h

theorem parse_ok (h : (r.parse host files validating).1 = .ok ()) :
    ∃ snapshot, Snapshot.load host files = .ok snapshot ∧ r.check snapshot validating = .ok () ∧
      (r.parse host files validating).2 = { r with snapshot := some snapshot, validating } := by
  obtain ⟨e', hparse⟩ | ⟨snapshot, hload, hcheck, hparse⟩ := parse_cases r host files validating
  · rw [hparse] at h
    cases h
  · exact ⟨snapshot, hload, hcheck, by rw [hparse]⟩

/-- A reload leaves the registry that a parse in the mode in force leaves. -/
theorem reload_registry (r : Registry) (host : Host) (files : List String) :
    (r.reload host files).2 = (r.parse host files r.validating).2 := by
  rw [reload]
  obtain ⟨e, hcase⟩ | ⟨snapshot, -, -, hcase⟩ := parse_cases r host files r.validating
  · rw [hcase]
  · rw [hcase]

theorem reload_false (h : (r.reload host files).1 = false) : (r.reload host files).2 = r := by
  rw [reload] at h ⊢
  obtain ⟨e', hparse⟩ | ⟨snapshot, -, -, hparse⟩ := parse_cases r host files r.validating
  · rw [hparse]
  · rw [hparse] at h
    cases h

end LayeredConfig.Registry
