import LayeredConfig.Proofs.Failure
import LayeredConfig.Proofs.HasKind
import LayeredConfig.Proofs.Verdict

/-!
# What a parse promises to readers

A parse checks its snapshot before it is installed, option by option, with
locks, files and defaults as they are then; readers ask later, through the memo.
The two agree as long as nothing succeeds in between. `Settled` says of a
configuration that since a parse there were only reads and operations that
failed, and it remembers the registry that the parse left: every option of that
registry is still there and still resolves as it did in the check.

Registering several options is the one operation that fails and still changes
something. The options that it adds were not there to be checked, and nothing is
promised for them (`unchecked_after_failure`).
-/

namespace LayeredConfig

section Outcomes

variable {ε ε' α : Type} {outcome : Except ε α}

theorem some_map_ne_ok_none (outcome : Except ε α) :
    (some <$> outcome : Except ε (Option α)) ≠ .ok none := by
  intro h
  cases outcome with
  | error e => cases h
  | ok x => cases h

theorem some_map_mapError_eq_ok {f : ε → ε'} {x : α}
    (h : (some <$> outcome.mapError f : Except ε' (Option α)) = .ok (some x)) :
    outcome = .ok x := by
  cases outcome with
  | error e => cases h
  | ok y =>
    cases h
    rfl

theorem some_map_mapError_eq_error {f : ε → ε'} {e' : ε'}
    (h : (some <$> outcome.mapError f : Except ε' (Option α)) = .error e') :
    ∃ e, outcome = .error e ∧ f e = e' := by
  cases outcome with
  | error e =>
    cases h
    exact ⟨e, rfl, rfl⟩
  | ok y => cases h

end Outcomes

namespace Entry

variable {entry : Entry} {group : Option String} {snapshot : Option Snapshot}
  {validating : Bool}

theorem resolve_cases (entry : Entry) (group : Option String) (snapshot : Option Snapshot)
    (validating : Bool) :
    (∃ value, entry.locked = some value ∧
        entry.resolve group snapshot validating = .ok (some value)) ∨
      (∃ value, entry.locked = none ∧ entry.resolve group snapshot validating =
        some <$> (entry.schema.convert value).mapError (.invalidValue entry.schema.name)) ∨
      entry.locked = none ∧
        entry.resolve group snapshot validating = entry.resolveDefault validating := by
  rw [resolve]
  cases hlocked : entry.locked with
  | some value => exact .inl ⟨value, rfl, rfl⟩
  | none =>
    cases entry.fileValue? group snapshot with
    | some value =>
      right; left
      exact ⟨value, rfl, by rw [← convertFile_eq]⟩
    | none => exact .inr (.inr ⟨rfl, rfl⟩)

theorem resolveDefault_cases (entry : Entry) (validating : Bool) :
    (∃ value, entry.override = some value ∧ validating = false ∧
        entry.resolveDefault validating = .ok (some value)) ∨
      (∃ value ∈ entry.schema.default.toList ++ entry.override.toList,
        entry.resolveDefault validating =
          some <$> (entry.schema.convert value).mapError (.invalidDefault entry.schema.name)) ∨
      entry.override = none ∧ entry.resolveDefault validating = .ok none := by
  rw [resolveDefault]
  cases hoverride : entry.override with
  | some value =>
    cases validating with
    | false => exact .inl ⟨value, rfl, rfl, rfl⟩
    | true =>
      right; left
      exact ⟨value, by simp, by simp only [if_true, convertDefault_eq]⟩
  | none =>
    cases hdefault : entry.schema.default with
    | some value =>
      right; left
      exact ⟨value, by simp, by simp only [convertDefault_eq]⟩
    | none => exact .inr (.inr ⟨rfl, rfl⟩)

theorem resolve_ne_none_of_override (h : entry.override ≠ none) :
    entry.resolve group snapshot validating ≠ .ok none := by
  obtain ⟨value, -, hcase⟩ | ⟨value, -, hcase⟩ | ⟨-, hcase⟩ :=
    resolve_cases entry group snapshot validating
  · rw [hcase]
    intro hnone
    cases hnone
  · rw [hcase]
    exact some_map_ne_ok_none _
  · rw [hcase]
    obtain ⟨value, -, -, hdefault⟩ | ⟨value, -, hdefault⟩ | ⟨hnone, -⟩ :=
      resolveDefault_cases entry validating
    · rw [hdefault]
      intro hnone
      cases hnone
    · rw [hdefault]
      exact some_map_ne_ok_none _
    · exact absurd hnone h

theorem resolve_ne_invalidDefault (h : entry.badDefaults = []) (name : String)
    (cause : ValueError) :
    entry.resolve group snapshot validating ≠ .error (.invalidDefault name cause) := by
  intro herror
  obtain ⟨value, -, hcase⟩ | ⟨value, -, hcase⟩ | ⟨-, hcase⟩ :=
    resolve_cases entry group snapshot validating
  · rw [hcase] at herror
    cases herror
  · rw [hcase] at herror
    obtain ⟨e, -, he⟩ := some_map_mapError_eq_error herror
    cases he
  · rw [hcase] at herror
    obtain ⟨value, -, -, hdefault⟩ | ⟨value, hvalue, hdefault⟩ | ⟨-, hdefault⟩ :=
      resolveDefault_cases entry validating
    · rw [hdefault] at herror
      cases herror
    · rw [hdefault] at herror
      obtain ⟨e, he, -⟩ := some_map_mapError_eq_error herror
      obtain ⟨converted, hconverted⟩ := badDefaults_eq_nil_iff.1 h value hvalue
      rw [hconverted] at he
      cases he
    · rw [hdefault] at herror
      cases herror

/-- While defaults are validated, every value of an option that is not locked was converted. -/
theorem holds_of_resolve (hlocked : entry.locked = none) {value : Value}
    (h : entry.resolve group snapshot true = .ok (some value)) : entry.schema.Holds value := by
  obtain ⟨pinned, hpinned, -⟩ | ⟨given, -, hcase⟩ | ⟨-, hcase⟩ :=
    resolve_cases entry group snapshot true
  · rw [hlocked] at hpinned
    cases hpinned
  · rw [hcase] at h
    exact Schema.holds_convert (some_map_mapError_eq_ok h)
  · rw [hcase] at h
    obtain ⟨given, -, hmode, -⟩ | ⟨given, -, hdefault⟩ | ⟨-, hdefault⟩ :=
      resolveDefault_cases entry true
    · cases hmode
    · rw [hdefault] at h
      exact Schema.holds_convert (some_map_mapError_eq_ok h)
    · rw [hdefault] at h
      cases h

end Entry

namespace Registry

variable {r s t : Registry}

/-- A later registry has the same files and mode in force and still knows of every option what
an earlier one knew. -/
structure Keeps (r s : Registry) : Prop where
  installed : s.installed = r.installed
  entryAt? : ∀ {dest group entry}, r.entryAt? dest group = some entry →
    s.entryAt? dest group = some entry

theorem Keeps.refl (r : Registry) : Keeps r r :=
  ⟨rfl, fun h => h⟩

theorem Keeps.trans (hrs : Keeps r s) (hst : Keeps s t) : Keeps r t :=
  ⟨hst.installed.trans hrs.installed, fun h => hst.entryAt? (hrs.entryAt? h)⟩

theorem keeps_ensure (r : Registry) (group : Group) : Keeps r (r.ensure group) :=
  ⟨installed_ensure r group, fun h => by rw [entryAt?_ensure, h]⟩

theorem keeps_registerAt (r : Registry) (schema : Schema) (target : Option Group) :
    Keeps r (r.registerAt schema target).2 := by
  refine ⟨installed_registerAt r schema target, fun {dest group entry} hentry => ?_⟩
  have hending := registers_registerAt r schema target
  generalize r.registerAt schema target = result at hending ⊢
  cases hending with
  | reserved hname => exact hentry
  | known hname hknown hsame => exact hentry
  | duplicate hname hknown hother => exact hentry
  | added hname hfree hentries =>
    rw [entryAt?_setEntries hentries]
    split
    · next hgroup =>
      subst hgroup
      have hdest : dest ≠ schema.dest := by
        rintro rfl
        rw [hfree] at hentry
        cases hentry
      rw [Table.get?_insert, if_neg hdest, ← entryAt?_of_entries?_ok hentries,
        entryAt?_prepared]
      exact hentry
    · rw [entryAt?_prepared]
      exact hentry

theorem keeps_registerMany (r : Registry) (group : Option String) (schemas : List Schema) :
    Keeps r (r.registerMany group schemas).2 := by
  induction schemas generalizing r with
  | nil => exact Keeps.refl r
  | cons schema rest ih =>
    cases hfirst : (r.register schema group).1 with
    | error e =>
      rw [registerMany_cons_of_error hfirst]
      exact Keeps.refl r
    | ok isNew =>
      rw [registerMany_cons_of_ok hfirst, register_eq_registerAt]
      exact (keeps_registerAt r schema _).trans (ih _)

theorem keeps_perform_fails {host : Host} {operation : Operation}
    (h : operation.Fails (r.perform host operation).1) :
    Keeps r (r.perform host operation).2 := by
  cases hbulk : operation.isBulk with
  | false =>
    rw [perform_fails hbulk h]
    exact Keeps.refl r
  | true =>
    cases operation with
    | change change =>
      cases change with
      | registerMany schemas group => exact keeps_registerMany r group schemas
      | registerManyIn schemas group =>
        exact (keeps_ensure r group).trans (keeps_registerMany _ (some group.name) schemas)
      | _ => cases hbulk
    | _ => cases hbulk

/-- The files and the mode in force passed every check of the registry itself. -/
structure Checked (r : Registry) (validating : Bool) : Prop where
  keyed : r.Keyed
  mode : r.validating = validating
  passed : ∃ snapshot, r.snapshot = some snapshot ∧ r.check snapshot validating = .ok ()

/-- A parse that succeeds leaves a registry that passes its own checks. -/
theorem checked_parse (hkeyed : r.Keyed) {host : Host} {files : List String}
    {validating : Bool} (h : (r.parse host files validating).1 = .ok ()) :
    (r.parse host files validating).2.Checked validating := by
  obtain ⟨snapshot, hload, hcheck, hafter⟩ := parse_ok h
  refine ⟨hkeyed.parse host files validating, ?_, snapshot, ?_, ?_⟩
  · rw [hafter]
  · rw [hafter]
  · rw [hafter]
    exact hcheck

theorem checked_reload (hkeyed : r.Keyed) {host : Host} {files : List String}
    (h : (r.reload host files).1 = true) :
    (r.reload host files).2.Checked r.validating := by
  cases hparse : (r.parse host files r.validating).1 with
  | ok _ =>
    rw [reload_registry]
    exact checked_parse hkeyed hparse
  | error e =>
    obtain ⟨e', hcase⟩ | ⟨snapshot, -, -, hcase⟩ := parse_cases r host files r.validating
    · rw [reload, hcase] at h
      cases h
    · rw [hcase] at hparse
      cases hparse

theorem Checked.entry {validating : Bool} (h : r.Checked validating) {dest : String}
    {group : Option String} {entry : Entry} (hentry : r.entryAt? dest group = some entry) :
    ∃ snapshot, r.snapshot = some snapshot ∧
      (validating = true → entry.badDefaults = []) ∧
      (entry.schema.required = true → entry.override = none →
        ∃ value, entry.resolve group (some snapshot) validating = .ok (some value)) := by
  obtain ⟨snapshot, hsnapshot, hcheck⟩ := h.passed
  have hmem : (group, entry) ∈ r.all := by
    rw [h.keyed.mem_all_iff, (h.keyed dest group entry hentry).dest_eq]
    exact hentry
  rw [check_eq, verdict_eq_ok_iff, List.append_eq_nil_iff, List.append_eq_nil_iff] at hcheck
  obtain ⟨⟨-, hdefaults⟩, hlacks⟩ := hcheck
  refine ⟨snapshot, hsnapshot, fun hmode => ?_, ?_⟩
  · rw [if_pos hmode, List.flatMap_eq_nil_iff] at hdefaults
    exact hdefaults (group, entry) hmem
  · exact Entry.lack?_eq_none_iff.1 (List.filterMap_eq_nil_iff.1 hlacks (group, entry) hmem)

end Registry

namespace Config

/-- An operation that takes files in and succeeds, with the mode that is then in force. -/
inductive TakesIn (config : Config) (host : Host) : Operation → Bool → Prop
  | parse {files : List String} {validating : Bool}
      (hanswer : (config.perform host (.parse files validating)).1.answer = .ok .done) :
      TakesIn config host (.parse files validating) validating
  | reload {files : List String}
      (hanswer : (config.perform host (.reload files)).1.answer = .ok (.truth true)) :
      TakesIn config host (.reload files) config.registry.validating
  | reloadFiles
      (hanswer : (config.perform host .reloadFiles).1.answer = .ok (.truth true)) :
      TakesIn config host .reloadFiles config.registry.validating

/-- The configurations in which nothing has succeeded since a parse of some run. The parse left
the registry `parsed`, in the mode `validating`; after it there were only reads and operations that
failed. -/
inductive Settled (parsed : Registry) (validating : Bool) : Config → Prop
  | parsed {history : List Step} {host : Host} {operation : Operation}
      (htakes : (after history).TakesIn host operation validating)
      (hparsed : ((after history).perform host operation).2.registry = parsed) :
      Settled parsed validating ((after history).perform host operation).2
  | read {config : Config} {host : Host} {operation : Operation}
      (before : Settled parsed validating config) (hread : operation.isRead = true) :
      Settled parsed validating (config.perform host operation).2
  | failed {config : Config} {host : Host} {operation : Operation}
      (before : Settled parsed validating config)
      (hfails : operation.Fails (config.perform host operation).1) :
      Settled parsed validating (config.perform host operation).2

variable {parsed : Registry} {validating : Bool} {config : Config}

theorem TakesIn.checked {history : List Step} {host : Host} {operation : Operation}
    (h : (after history).TakesIn host operation validating) :
    ((after history).perform host operation).2.registry.Checked validating := by
  have hkeyed := keyed_after history
  obtain ⟨hanswer, hregistry, -⟩ := matches_perform (coherent_after history) host operation
  rw [hregistry]
  cases h with
  | parse hdone =>
    rename_i files
    refine Registry.checked_parse hkeyed ?_
    rw [hanswer] at hdone
    cases hparse : ((after history).registry.parse host files validating).1 with
    | ok _ => rfl
    | error e =>
      simp only [Registry.perform, hparse] at hdone
      cases hdone
  | reload htrue =>
    rw [hanswer] at htrue
    exact Registry.checked_reload hkeyed (Answer.truth.inj (Except.ok.inj htrue))
  | reloadFiles htrue =>
    rw [hanswer] at htrue
    exact Registry.checked_reload hkeyed (Answer.truth.inj (Except.ok.inj htrue))

/-- Reads and failed operations keep everything that was checked, and a memo that they find
coherent. -/
theorem Settled.keeps (h : Settled parsed validating config) :
    config.Coherent ∧ parsed.Keeps config.registry ∧ parsed.Checked validating := by
  induction h with
  | @parsed history host operation htakes hparsed =>
    have hmatches := matches_perform (coherent_after history) host operation
    subst hparsed
    exact ⟨hmatches.coherent, .refl _, htakes.checked⟩
  | @read config host operation before hread ih =>
    obtain ⟨hcoherent, hkeeps, hchecked⟩ := ih
    have hmatches := matches_perform hcoherent host operation
    refine ⟨hmatches.coherent, ?_, hchecked⟩
    rw [hmatches.registry, Registry.perform_isRead hread]
    exact hkeeps
  | @failed config host operation before hfails ih =>
    obtain ⟨hcoherent, hkeeps, hchecked⟩ := ih
    have hmatches := matches_perform hcoherent host operation
    rw [hmatches.answer] at hfails
    refine ⟨hmatches.coherent, ?_, hchecked⟩
    rw [hmatches.registry]
    exact hkeeps.trans (Registry.keeps_perform_fails hfails)

/-- As long as nothing has succeeded since a parse, every option that was registered then is
registered still and reads as the parse promised. A required option has a value, or at least one
that does not convert where a replaced default stands in for it. If defaults were validated, no
read complains of a default, and every value of an option that is not locked is one of its kind. -/
theorem read_settled {dest : String} {group : Option String} {entry : Entry}
    (hsettled : Settled parsed validating config)
    (hentry : parsed.entry? dest group = .ok entry) :
    config.registry.entry? dest group = .ok entry ∧
      (entry.schema.required = true → ((read dest group).run config).1 ≠ .ok none) ∧
      (entry.schema.required = true → entry.override = none →
        ∃ value, ((read dest group).run config).1 = .ok (some value)) ∧
      (validating = true →
        (∀ name cause, ((read dest group).run config).1 ≠ .error (.invalidDefault name cause)) ∧
          (entry.locked = none → ∀ value,
            ((read dest group).run config).1 = .ok (some value) → entry.schema.Holds value)) := by
  obtain ⟨hcoherent, hkeeps, hchecked⟩ := hsettled.keeps
  rw [Registry.entry?_eq_ok_iff] at hentry
  have hstill := Registry.entry?_eq_ok_iff.2 (hkeeps.entryAt? hentry)
  obtain ⟨snapshot, hsnapshot, hdefaults, hrequired⟩ := hchecked.entry hentry
  obtain ⟨hfiles, hmode⟩ := Prod.mk.inj hkeeps.installed
  rw [hsnapshot] at hfiles
  rw [hchecked.mode] at hmode
  have hread : ((read dest group).run config).1 =
      entry.resolve group (some snapshot) validating := by
    rw [(gives_read _ dest group config hcoherent rfl).answer, Registry.read, hstill]
    simp only [hfiles, hmode]
  rw [hread]
  refine ⟨hstill, fun hneeded => ?_, hrequired, fun hvalidating => ⟨?_, ?_⟩⟩
  · cases hoverride : entry.override with
    | none =>
      obtain ⟨value, hvalue⟩ := hrequired hneeded hoverride
      rw [hvalue]
      intro hnone
      cases hnone
    -- What replaces a default counts as a value even if it does not convert.
    | some value => exact Entry.resolve_ne_none_of_override (by simp [hoverride])
  · exact Entry.resolve_ne_invalidDefault (hdefaults hvalidating)
  · intro hlocked value hvalue
    subst hvalidating
    exact Entry.holds_of_resolve hlocked hvalue

end Config

namespace Sample

/-- An option that must have a value, which can be one word only. -/
def vital : Schema :=
  { Schema.ofName "token" (.string (some ["only"])) with required := true }

/-- A row of options of which the last is refused for its name. -/
def halfRefused : Operation :=
  .change (.registerMany [vital, Schema.ofName "_token" Kind.text] none)

def requiredPort : Schema :=
  { bindPort with required := true }

/-- Two files in force for a required option, with defaults validated. -/
def checkedPort : Config :=
  ((Config.after [registering requiredPort (some "api")]).perform overlayHost
    (.parse ["/base.conf", "/site.conf"] true)).2

end Sample

namespace Config

open Sample

theorem settled_checkedPort : Settled checkedPort.registry true checkedPort :=
  .parsed (.parse rfl) rfl

/-- A row of options that is refused in part is no matter for an option that was checked. -/
theorem read_settled_half_refused :
    Settled checkedPort.registry true (checkedPort.perform bareHost halfRefused).2 ∧
      checkedPort.registry.entry? "bind_port" (some "api") = .ok { schema := requiredPort } ∧
      ((read "bind_port" (some "api")).run (checkedPort.perform bareHost halfRefused).2).1 =
        .ok (some (.integer 90)) ∧
      requiredPort.Holds (.integer 90) := by
  have hsettled : Settled checkedPort.registry true (checkedPort.perform bareHost halfRefused).2 :=
    .failed settled_checkedPort ⟨.illegalName "_token", rfl⟩
  have hentry : checkedPort.registry.entry? "bind_port" (some "api") =
      .ok { schema := requiredPort } := rfl
  obtain ⟨-, -, -, hvalidated⟩ := read_settled hsettled hentry
  have hread : ((read "bind_port" (some "api")).run
      (checkedPort.perform bareHost halfRefused).2).1 = .ok (some (.integer 90)) := rfl
  exact ⟨hsettled, hentry, hread, (hvalidated rfl).2 rfl _ hread⟩

/-- Of the options that are registered in the end not all need have a value: a required one may
have come in with a row that was refused in part. -/
theorem unchecked_after_failure :
    ¬∀ (parsed : Registry) (validating : Bool) (config : Config) (dest : String)
      (group : Option String) (entry : Entry), Settled parsed validating config →
        config.registry.entry? dest group = .ok entry → entry.schema.required = true →
          ((read dest group).run config).1 ≠ .ok none := by
  intro hall
  have hparsed : ((after []).perform bareHost (.parse [] true)).1.answer = .ok .done := rfl
  have hsettled := Settled.failed (.parsed (.parse hparsed) rfl)
    (show halfRefused.Fails
        (((after []).perform bareHost (.parse [] true)).2.perform bareHost halfRefused).1 from
      ⟨.illegalName "_token", rfl⟩)
  exact hall _ true _ "token" none { schema := vital } hsettled rfl rfl rfl

end Config

end LayeredConfig
