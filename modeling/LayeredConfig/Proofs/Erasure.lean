import LayeredConfig.Proofs.Effects

/-!
# Erased history

To clear a registry is to make it the one that would be there had no files ever
been put in force; to reset it is to undo, besides, all that was said of options
after they were registered. Both leave the groups and the schemas of all options
as they are and change every entry in one way, as `Erases` says. Whatever does so
can be done before a registration or after it, with the same answer to the
registration and the same registry in the end, and it makes no difference that
files were put in force before.

So an erasure at the end of a run can be moved to its beginning, past everything
that it commutes with, while what it absorbs is left out (`run_erased`). At the
beginning there is nothing to erase.
-/

namespace LayeredConfig

/-- Whether an operation puts files in force or drops them, and does nothing else. -/
def Operation.isFiling : Operation → Bool
  | .parse _ _ | .reload _ | .reloadFiles | .change .clear => true
  | _ => false

/-- Whether a change is about what replaces defaults and what options are locked to. -/
def Change.isSetting : Change → Bool
  | .setDefault _ _ _ | .clearDefault _ _ | .lock _ _ _ | .unlock _ _ | .reset => true
  | _ => false

def Operation.isSetting : Operation → Bool
  | .change c => c.isSetting
  | _ => false

namespace Registry

/-- A function on registries drops the files in force and changes what is known of every option in
one way, but neither its schema nor the groups. -/
structure Erases (φ : Registry → Registry) (f : Entry → Entry) : Prop where
  entryAt? : ∀ r dest group, (φ r).entryAt? dest group = (r.entryAt? dest group).map f
  groupAt? : ∀ r name, (φ r).groupAt? name = r.groupAt? name
  installed : ∀ r, (φ r).installed = (none, false)
  schema : ∀ entry, (f entry).schema = entry.schema
  added : ∀ schema, f { schema } = { schema }

theorem erases_clear : Erases clear id where
  entryAt? := fun r dest group => by rw [entryAt?_clear, Option.map_id, id]
  groupAt? := groupAt?_clear
  installed := fun _ => rfl
  schema := fun _ => rfl
  added := fun _ => rfl

theorem erases_reset : Erases reset Entry.fresh where
  entryAt? := entryAt?_reset
  groupAt? := groupAt?_reset
  installed := fun _ => rfl
  schema := fun _ => rfl
  added := fun _ => rfl

namespace Erases

variable {φ : Registry → Registry} {f : Entry → Entry}

theorem eq_of_views (h : Erases φ f) {r s : Registry}
    (hentry : ∀ dest group, (r.entryAt? dest group).map f = (s.entryAt? dest group).map f)
    (hgroup : ∀ name, r.groupAt? name = s.groupAt? name) : φ r = φ s := by
  apply ext_views
  · intro dest group
    rw [h.entryAt?, hentry, h.entryAt?]
  · intro name
    rw [h.groupAt?, hgroup, h.groupAt?]
  · rw [h.installed, h.installed]

theorem ensure (h : Erases φ f) (r : Registry) (group : Group) :
    φ (r.ensure group) = (φ r).ensure group := by
  apply ext_views
  · intro dest other
    rw [h.entryAt?, entryAt?_ensure, entryAt?_ensure, h.entryAt?]
  · intro name
    rw [h.groupAt?, groupAt?_ensure, groupAt?_ensure, h.groupAt?]
  · rw [h.installed, installed_ensure, h.installed]

theorem prepared (h : Erases φ f) (r : Registry) (target : Option Group) :
    φ (r.prepared target) = (φ r).prepared target := by
  cases target with
  | none => rfl
  | some group => exact h.ensure r group

theorem answer_registerAt (h : Erases φ f) (r : Registry) (schema : Schema)
    (target : Option Group) :
    ((φ r).registerAt schema target).1 = (r.registerAt schema target).1 := by
  rw [Registry.answer_registerAt, Registry.answer_registerAt, h.entryAt?]
  cases r.entryAt? schema.dest (target.map Group.name) with
  | none => rfl
  | some entry => simp only [Option.map_some, h.schema]

theorem registerAt (h : Erases φ f) (r : Registry) (schema : Schema) (target : Option Group) :
    φ (r.registerAt schema target).2 = ((φ r).registerAt schema target).2 := by
  apply ext_views
  · intro dest group
    rw [h.entryAt?, entryAt?_registerAt, entryAt?_registerAt, h.entryAt?]
    split
    · cases r.entryAt? dest group with
      | none => rw [Option.getD_none, Option.map_some, h.added, Option.map_none, Option.getD_none]
      | some entry => rfl
    · rfl
  · intro name
    rw [h.groupAt?, groupAt?_registerAt, groupAt?_registerAt, ← h.prepared, h.groupAt?,
      h.groupAt?]
  · rw [h.installed, installed_registerAt, h.installed]

theorem unregister (h : Erases φ f) (r : Registry) (schemas : List Schema)
    (group : Option String) :
    φ (r.unregister schemas group).2 = ((φ r).unregister schemas group).2 := by
  apply ext_views
  · intro dest other
    rw [h.entryAt?, entryAt?_unregister, entryAt?_unregister, h.entryAt?]
    split
    · rfl
    · rfl
  · intro name
    rw [h.groupAt?, groupAt?_unregister, groupAt?_unregister, h.groupAt?]
  · rw [h.installed, installed_unregister, h.installed]

theorem modify (h : Erases φ f) {g : Entry → Entry} (hg : ∀ entry, f (g entry) = g (f entry))
    (r : Registry) (dest : String) (group : Option String) :
    φ (r.modify dest group g).2 = ((φ r).modify dest group g).2 := by
  apply ext_views
  · intro other otherGroup
    rw [h.entryAt?, entryAt?_modify, entryAt?_modify, h.entryAt?]
    split
    · rw [Option.map_map, Option.map_map]
      exact congrArg (fun k => Option.map k _) (funext hg)
    · rfl
  · intro name
    rw [h.groupAt?, groupAt?_modify, groupAt?_modify, h.groupAt?]
  · rw [h.installed, installed_modify, h.installed]

theorem absorbs_modify (h : Erases φ f) {g : Entry → Entry} (hg : ∀ entry, f (g entry) = f entry)
    (r : Registry) (dest : String) (group : Option String) :
    φ (r.modify dest group g).2 = φ r := by
  apply h.eq_of_views
  · intro other otherGroup
    rw [entryAt?_modify]
    split
    · rw [Option.map_map]
      exact congrArg (fun k => Option.map k _) (funext hg)
    · rfl
  · exact groupAt?_modify r dest group g

theorem absorbs_parse (h : Erases φ f) (r : Registry) (host : Host) (files : List String)
    (validating : Bool) : φ (r.parse host files validating).2 = φ r := by
  obtain ⟨e, hcase⟩ | ⟨snapshot, -, -, hcase⟩ := parse_cases r host files validating
  · rw [hcase]
  · rw [hcase]
    exact h.eq_of_views (fun _ _ => rfl) fun _ => rfl

theorem absorbs_reload (h : Erases φ f) (r : Registry) (host : Host) (files : List String) :
    φ (r.reload host files).2 = φ r := by
  rw [reload_registry]
  exact h.absorbs_parse r host files r.validating

theorem absorbs_clear (h : Erases φ f) (r : Registry) : φ r.clear = φ r := by
  apply h.eq_of_views
  · intro dest group
    rw [entryAt?_clear]
  · exact groupAt?_clear r

theorem register (h : Erases φ f) (r : Registry) (schema : Schema) (group : Option String) :
    φ (r.register schema group).2 = ((φ r).register schema group).2 := by
  rw [register_eq_registerAt, register_eq_registerAt]
  exact h.registerAt r schema (group.map Group.ofName)

theorem answer_register (h : Erases φ f) (r : Registry) (schema : Schema)
    (group : Option String) :
    ((φ r).register schema group).1 = (r.register schema group).1 := by
  rw [register_eq_registerAt, register_eq_registerAt]
  exact h.answer_registerAt r schema (group.map Group.ofName)

theorem registerMany (h : Erases φ f) (r : Registry) (schemas : List Schema)
    (group : Option String) :
    φ (r.registerMany group schemas).2 = ((φ r).registerMany group schemas).2 := by
  induction schemas generalizing r with
  | nil => rfl
  | cons schema rest ih =>
    have hanswer := h.answer_register r schema group
    cases hfirst : (r.register schema group).1 with
    | error e =>
      rw [hfirst] at hanswer
      rw [registerMany_cons_of_error hfirst, registerMany_cons_of_error hanswer]
    | ok isNew =>
      rw [hfirst] at hanswer
      rw [registerMany_cons_of_ok hfirst, registerMany_cons_of_ok hanswer, ih, h.register]

/-- Registering options and groups and removing options commute with every erasure. -/
theorem apply (h : Erases φ f) (r : Registry) {change : Change} (hdrop : change.isDrop = false)
    (hsetting : change.isSetting = false) : φ (r.apply change).2 = ((φ r).apply change).2 := by
  cases change with
  | register schema group => exact h.register r schema group
  | registerIn schema group => exact h.registerAt r schema (some group)
  | registerMany schemas group => exact h.registerMany r schemas group
  | registerManyIn schemas group =>
    show φ ((r.ensure group).registerMany (some group.name) schemas).2 =
      (((φ r).ensure group).registerMany (some group.name) schemas).2
    rw [h.registerMany, h.ensure]
  | registerGroup group => exact h.ensure r group
  | unregister schemas group => exact h.unregister r schemas group
  | setDefault dest value group => cases hsetting
  | clearDefault dest group => cases hsetting
  | lock dest value group => cases hsetting
  | unlock dest group => cases hsetting
  | clear => cases hdrop
  | reset => cases hdrop

theorem absorbs_filing (h : Erases φ f) (r : Registry) (host : Host) {operation : Operation}
    (hfiling : operation.isFiling = true) : φ (r.perform host operation).2 = φ r := by
  cases operation with
  | change change =>
    cases change with
    | clear => exact h.absorbs_clear r
    | _ => cases hfiling
  | read query => cases hfiling
  | dump level => cases hfiling
  | parse files validating => exact h.absorbs_parse r host files validating
  | reload files => exact h.absorbs_reload r host files
  | reloadFiles => exact h.absorbs_reload r host r.files

end Erases

/-- An erasure at the end of a run erases at its beginning what it commutes with, and makes up for
the operations that it absorbs. -/
theorem run_erased {φ : Registry → Registry} {absorbed : Operation → Bool}
    (habsorbs : ∀ r host operation, absorbed operation = true →
      φ (r.perform host operation).2 = φ r)
    (hcommutes : ∀ r host operation, absorbed operation = false →
      φ (r.perform host operation).2 = ((φ r).perform host operation).2)
    (r : Registry) (history : List Step) :
    φ (r.run history).2 =
      ((φ r).run (history.filter fun step => !absorbed step.operation)).2 := by
  induction history generalizing r with
  | nil => rfl
  | cons step rest ih =>
    rw [run_cons, ih]
    cases hstep : absorbed step.operation with
    | true =>
      rw [habsorbs r step.host step.operation hstep, List.filter_cons_of_neg (by simp [hstep])]
    | false =>
      rw [hcommutes r step.host step.operation hstep, List.filter_cons_of_pos (by simp [hstep]),
        run_cons]

theorem setting_cases {change : Change} (h : change.isSetting = true) :
    change = .reset ∨ ∃ dest group, ∃ g : Entry → Entry, (∀ entry, (g entry).fresh = entry.fresh) ∧
      ∀ r : Registry, (r.apply change).2 = (r.modify dest group g).2 := by
  cases change with
  | setDefault dest value group =>
    exact .inr ⟨dest, group, fun entry => { entry with override := some value },
      fun _ => rfl, fun _ => rfl⟩
  | clearDefault dest group =>
    exact .inr ⟨dest, group, fun entry => { entry with override := none },
      fun _ => rfl, fun _ => rfl⟩
  | lock dest value group =>
    exact .inr ⟨dest, group, fun entry => { entry with locked := some value },
      fun _ => rfl, fun _ => rfl⟩
  | unlock dest group =>
    exact .inr ⟨dest, group, fun entry => { entry with locked := none },
      fun _ => rfl, fun _ => rfl⟩
  | reset => exact .inl rfl
  | _ => cases h

theorem reset_reset (r : Registry) : r.reset.reset = r.reset := by
  apply erases_reset.eq_of_views
  · intro dest group
    rw [entryAt?_reset, Option.map_map]
    rfl
  · exact groupAt?_reset r

/-- Apart from what puts files in force or drops them, every operation commutes with `clear`. -/
theorem clear_perform (r : Registry) (host : Host) {operation : Operation}
    (h : operation.isFiling = false) :
    (r.perform host operation).2.clear = (r.clear.perform host operation).2 := by
  cases operation with
  | change change =>
    show (r.apply change).2.clear = (r.clear.apply change).2
    cases hsetting : change.isSetting with
    | true =>
      obtain rfl | ⟨dest, group, g, -, hmodify⟩ := setting_cases hsetting
      · rfl
      · rw [hmodify, hmodify]
        exact erases_clear.modify (g := g) (fun _ => rfl) r dest group
    | false =>
      have hdrop : change.isDrop = false := by
        cases change with
        | clear => cases h
        | reset => cases hsetting
        | _ => rfl
      exact erases_clear.apply r hdrop hsetting
  | read query => rfl
  | dump level => rfl
  | parse files validating => cases h
  | reload files => cases h
  | reloadFiles => cases h

theorem absorbs_setting (r : Registry) (host : Host) {operation : Operation}
    (h : operation.isSetting = true) : (r.perform host operation).2.reset = r.reset := by
  cases operation with
  | change change =>
    show (r.apply change).2.reset = r.reset
    obtain rfl | ⟨dest, group, g, hg, hmodify⟩ := setting_cases h
    · exact r.reset_reset
    · rw [hmodify]
      exact erases_reset.absorbs_modify hg r dest group
  | _ => cases h

/-- Registrations and removals, and reads, commute with `reset`. -/
theorem reset_perform (r : Registry) (host : Host) {operation : Operation}
    (hfiling : operation.isFiling = false) (hsetting : operation.isSetting = false) :
    (r.perform host operation).2.reset = (r.reset.perform host operation).2 := by
  cases operation with
  | change change =>
    have hdrop : change.isDrop = false := by
      cases change with
      | clear => cases hfiling
      | reset => cases hsetting
      | _ => rfl
    exact erases_reset.apply r hdrop hsetting
  | read query => rfl
  | dump level => rfl
  | parse files validating => cases hfiling
  | reload files => cases hfiling
  | reloadFiles => cases hfiling

end Registry

namespace Config

/-- Clearing after a run leaves what the run leaves without its parses, reloads and clears: the
same registry, options, groups with their titles and helps, overrides, locks, files and mode, and
with it the same answers to every later run. Resetting leaves what the run leaves without these and
without everything that replaces defaults or locks options, so that of the run only registrations
and removals remain. -/
theorem history_erased (history : List Step) (host : Host) :
    (let cleared := ((after history).perform host (.change .clear)).2
      let unfiled := after (history.filter fun step => !step.operation.isFiling)
      cleared.registry = unfiled.registry ∧
        ∀ later, (cleared.run later).1 = (unfiled.run later).1) ∧
      let reset := ((after history).perform host (.change .reset)).2
      let unset := after (history.filter fun step =>
        !(step.operation.isFiling || step.operation.isSetting))
      reset.registry = unset.registry ∧
        ∀ later, (reset.run later).1 = (unset.run later).1 := by
  have herased : ∀ (change : Change) (kept : List Step),
      ((({} : Registry).run history).2.apply change).2 = (({} : Registry).run kept).2 →
        ((after history).perform host (.change change)).2.registry = (after kept).registry ∧
          ∀ later, (((after history).perform host (.change change)).2.run later).1 =
            ((after kept).run later).1 := by
    intro change kept hkept
    have hmatches := matches_perform (coherent_after history) host (.change change)
    have hregistry : ((after history).perform host (.change change)).2.registry =
        (after kept).registry := by
      rw [hmatches.registry, registry_after, registry_after]
      exact hkept
    exact ⟨hregistry, run_congr hmatches.coherent (coherent_after kept) hregistry⟩
  constructor
  · refine herased .clear _ ?_
    exact Registry.run_erased (φ := Registry.clear)
      (fun r host _ h => Registry.erases_clear.absorbs_filing r host h)
      (fun r host _ h => r.clear_perform host h) {} history
  · refine herased .reset _ ?_
    have habsorbs : ∀ (r : Registry) host (operation : Operation),
        (operation.isFiling || operation.isSetting) = true →
          (r.perform host operation).2.reset = r.reset := by
      intro r host operation h
      rcases Bool.or_eq_true_iff.1 h with hfiling | hsetting
      · exact Registry.erases_reset.absorbs_filing r host hfiling
      · exact r.absorbs_setting host hsetting
    refine Registry.run_erased habsorbs (fun r host operation h => ?_) {} history
    obtain ⟨hfiling, hsetting⟩ := Bool.or_eq_false_iff.1 h
    exact r.reset_perform host hfiling hsetting

end Config

end LayeredConfig
