import LayeredConfig.Proofs.Effects
import LayeredConfig.Proofs.Failure
import LayeredConfig.Proofs.SelfEqual

/-!
# Registering an option again

Components that share an option each register it, and only the first of them
should make a difference. What a registration compares is the schema at the
place of the option (`Registry.schemaAt?`). Once there it stays whatever
happens, defaults replaced, options locked, files put in force or dropped, until
the option is removed from that place.

So an option that is registered again meets itself, and may be left out of any
row of registrations. The exception are options that do not equal themselves
(`Schema.HasNaN`): registered again they are taken for another option and
refused, though even then nothing changes.
-/

namespace LayeredConfig

/-- An operation removes what is registered at a place. -/
def Operation.Removes (dest : String) (group : Option String) : Operation → Prop
  | .change (.unregister schemas place) => place = group ∧ dest ∈ schemas.map Schema.dest
  | _ => False

/-- The ways to register one option in a group or outside all groups, each with its answer if the
option is there already. -/
inductive Change.Repeats (schema : Schema) : Option String → Change → Answer → Prop
  | register (group : Option String) :
      Repeats schema group (.register schema group) (.truth false)
  | registerMany (group : Option String) :
      Repeats schema group (.registerMany [schema] group) .done
  | registerIn (group : Group) :
      Repeats schema (some group.name) (.registerIn schema group) (.truth false)
  | registerManyIn (group : Group) :
      Repeats schema (some group.name) (.registerManyIn [schema] group) .done

namespace Schema

variable {schema : Schema}

/-- What an option comes to that meets itself: it is known, unless it does not equal itself. -/
def recognized (schema : Schema) : Except ConfigError Unit :=
  if schema == schema then .ok () else .error (.duplicateOption schema.name)

theorem recognized_of_not_hasNaN (h : ¬schema.HasNaN) : schema.recognized = .ok () := by
  rw [recognized, if_pos (schema.beq_self_iff.2 h)]

theorem recognized_of_hasNaN (h : schema.HasNaN) :
    schema.recognized = .error (.duplicateOption schema.name) := by
  rw [recognized, if_neg fun hself => schema.beq_self_iff.1 hself h]

end Schema

namespace Registry

variable {r : Registry} {schema known : Schema} {dest : String} {group : Option String}

/-- The schema of the option at a place, if there is one. -/
def schemaAt? (r : Registry) (dest : String) (group : Option String) : Option Schema :=
  (r.entryAt? dest group).map Entry.schema

theorem schemaAt?_congr {s : Registry}
    (h : s.entryAt? dest group = r.entryAt? dest group) :
    s.schemaAt? dest group = r.schemaAt? dest group := by
  rw [schemaAt?, h, schemaAt?]

section Kept

theorem schemaAt?_registerAt (h : r.schemaAt? dest group = some known) (schema : Schema)
    (target : Option Group) :
    (r.registerAt schema target).2.schemaAt? dest group = some known := by
  obtain ⟨entry, hentry, rfl⟩ := Option.map_eq_some_iff.1 h
  rw [schemaAt?, entryAt?_registerAt, hentry]
  split
  · rfl
  · rfl

theorem schemaAt?_register (h : r.schemaAt? dest group = some known) (schema : Schema)
    (place : Option String) :
    (r.register schema place).2.schemaAt? dest group = some known := by
  rw [register_eq_registerAt]
  exact schemaAt?_registerAt h schema (place.map Group.ofName)

theorem schemaAt?_registerMany (h : r.schemaAt? dest group = some known) (schemas : List Schema)
    (place : Option String) :
    (r.registerMany place schemas).2.schemaAt? dest group = some known := by
  induction schemas generalizing r with
  | nil => exact h
  | cons schema rest ih =>
    cases hfirst : (r.register schema place).1 with
    | error e =>
      rw [registerMany_cons_of_error hfirst]
      exact h
    | ok isNew =>
      rw [registerMany_cons_of_ok hfirst]
      exact ih (schemaAt?_register h schema place)

theorem schemaAt?_ensure (h : r.schemaAt? dest group = some known) (created : Group) :
    (r.ensure created).schemaAt? dest group = some known :=
  (schemaAt?_congr (entryAt?_ensure r created dest group)).trans h

theorem schemaAt?_modify (h : r.schemaAt? dest group = some known) (other : String)
    (place : Option String) {f : Entry → Entry} (hf : ∀ entry, (f entry).schema = entry.schema) :
    (r.modify other place f).2.schemaAt? dest group = some known := by
  obtain ⟨entry, hentry, rfl⟩ := Option.map_eq_some_iff.1 h
  rw [schemaAt?, entryAt?_modify, hentry]
  split
  · exact congrArg some (hf entry)
  · rfl

theorem schemaAt?_apply (h : r.schemaAt? dest group = some known) {change : Change}
    (hkept : ¬(Operation.change change).Removes dest group) :
    (r.apply change).2.schemaAt? dest group = some known := by
  cases change with
  | register schema place => exact schemaAt?_register h schema place
  | registerIn schema place => exact schemaAt?_registerAt h schema (some place)
  | registerMany schemas place => exact schemaAt?_registerMany h schemas place
  | registerManyIn schemas place =>
    exact schemaAt?_registerMany (schemaAt?_ensure h place) schemas (some place.name)
  | registerGroup place => exact schemaAt?_ensure h place
  | unregister schemas place =>
    refine (schemaAt?_congr ?_).trans h
    show (r.unregister schemas place).2.entryAt? dest group = _
    rw [entryAt?_unregister, if_neg fun hplace => hkept ⟨hplace.1.symm, hplace.2⟩]
  | setDefault other value place => exact schemaAt?_modify h other place fun _ => rfl
  | clearDefault other place => exact schemaAt?_modify h other place fun _ => rfl
  | lock other value place => exact schemaAt?_modify h other place fun _ => rfl
  | unlock other place => exact schemaAt?_modify h other place fun _ => rfl
  | clear => exact (schemaAt?_congr (entryAt?_clear r dest group)).trans h
  | reset =>
    obtain ⟨entry, hentry, rfl⟩ := Option.map_eq_some_iff.1 h
    show r.reset.schemaAt? dest group = _
    rw [schemaAt?, entryAt?_reset, hentry]
    rfl

theorem schemaAt?_parse (h : r.schemaAt? dest group = some known) (host : Host)
    (files : List String) (validating : Bool) :
    (r.parse host files validating).2.schemaAt? dest group = some known := by
  obtain ⟨e, hcase⟩ | ⟨snapshot, -, -, hcase⟩ := parse_cases r host files validating
  · rw [hcase]
    exact h
  · rw [hcase]
    cases group with
    | none => exact h
    | some name => exact h

theorem schemaAt?_perform (h : r.schemaAt? dest group = some known) (host : Host)
    {operation : Operation} (hkept : ¬operation.Removes dest group) :
    (r.perform host operation).2.schemaAt? dest group = some known := by
  cases operation with
  | change change => exact schemaAt?_apply h hkept
  | read query => exact h
  | dump level => exact h
  | parse files validating => exact schemaAt?_parse h host files validating
  | reload files =>
    show (r.reload host files).2.schemaAt? dest group = _
    rw [reload_registry]
    exact schemaAt?_parse h host files r.validating
  | reloadFiles =>
    show (r.reload host r.files).2.schemaAt? dest group = _
    rw [reload_registry]
    exact schemaAt?_parse h host r.files r.validating

theorem schemaAt?_run {steps : List Step} (h : r.schemaAt? dest group = some known)
    (hkept : ∀ step ∈ steps, ¬step.operation.Removes dest group) :
    (r.run steps).2.schemaAt? dest group = some known := by
  induction steps generalizing r with
  | nil => exact h
  | cons step rest ih =>
    obtain ⟨hstep, hrest⟩ := List.forall_mem_cons.1 hkept
    exact ih (schemaAt?_perform h step.host hstep) hrest

end Kept

section Again

theorem schemaAt?_of_registerAt_true {target : Option Group}
    (h : (r.registerAt schema target).1 = .ok true) :
    schema.isReserved = false ∧
      (r.registerAt schema target).2.schemaAt? schema.dest (target.map Group.name) =
        some schema := by
  have hending := registers_registerAt r schema target
  generalize r.registerAt schema target = result at h hending ⊢
  cases hending with
  | reserved hname => cases h
  | known hname hentry hsame => cases h
  | duplicate hname hentry hother => cases h
  | added hname hfree hentries =>
    refine ⟨hname, ?_⟩
    rw [schemaAt?, entryAt?_setEntries hentries, if_pos rfl, Table.get?_insert, if_pos rfl]
    rfl

theorem schemaAt?_of_register_true (h : (r.register schema group).1 = .ok true) :
    schema.isReserved = false ∧
      (r.register schema group).2.schemaAt? schema.dest group = some schema := by
  rw [register_eq_registerAt] at h ⊢
  have hadded := schemaAt?_of_registerAt_true h
  rw [map_name_ofName] at hadded
  exact hadded

/-- An option that is at its place already meets itself there, and nothing changes. -/
theorem registerAt_again {target : Option Group} (hname : schema.isReserved = false)
    (h : r.schemaAt? schema.dest (target.map Group.name) = some schema) :
    r.registerAt schema target = ((fun _ => false) <$> schema.recognized, r) := by
  obtain ⟨entry, hentry, hschema⟩ := Option.map_eq_some_iff.1 h
  have hending := registers_registerAt r schema target
  generalize r.registerAt schema target = result at hending ⊢
  cases hending with
  | reserved hreserved => cases hname.symm.trans hreserved
  | known _ hfound hsame =>
    cases hentry.symm.trans hfound
    rw [hschema] at hsame
    rw [Schema.recognized, if_pos hsame]
    rfl
  | duplicate _ hfound hother =>
    cases hentry.symm.trans hfound
    rw [hschema] at hother
    rw [Schema.recognized, hother, if_neg Bool.false_ne_true]
    rfl
  | added _ hfree hentries => cases hentry.symm.trans hfree

theorem register_again (hname : schema.isReserved = false)
    (h : r.schemaAt? schema.dest group = some schema) :
    r.register schema group = ((fun _ => false) <$> schema.recognized, r) := by
  rw [register_eq_registerAt]
  refine registerAt_again hname ?_
  rw [map_name_ofName]
  exact h

theorem registerMany_again (hname : schema.isReserved = false)
    (h : r.schemaAt? schema.dest group = some schema) :
    r.registerMany group [schema] = (schema.recognized, r) := by
  rw [registerMany, register_again hname h]
  cases schema.recognized with
  | error e => rfl
  | ok _ => rfl

theorem ensure_of_schemaAt? {given : Group}
    (h : r.schemaAt? dest (some given.name) = some known) : r.ensure given = r := by
  obtain ⟨entry, hentry, -⟩ := Option.map_eq_some_iff.1 h
  obtain ⟨entries, hentries, -⟩ := exists_entries?_of_entryAt? hentry
  exact ensure_of_entries?_ok hentries

/-- However an option is registered that is there already, it meets itself, and nothing changes. -/
theorem apply_repeats (hname : schema.isReserved = false)
    (h : r.schemaAt? schema.dest group = some schema) {change : Change} {answer : Answer}
    (hrepeats : change.Repeats schema group answer) :
    r.apply change = ((fun _ => answer) <$> schema.recognized, r) := by
  cases hrepeats with
  | register place =>
    rw [apply, apply.answered, register_again hname h, ← comp_map]
    rfl
  | registerMany place =>
    rw [apply, apply.answered, registerMany_again hname h]
  | registerIn given =>
    rw [apply, apply.answered, registerIn_eq_registerAt, registerAt_again hname h, ← comp_map]
    rfl
  | registerManyIn given =>
    rw [apply, apply.answered, registerManyIn, ensure_of_schemaAt? h, registerMany_again hname h]

/-- In a row of registrations an option that is there already may be left out. -/
theorem registerMany_without (hname : schema.isReserved = false) (hself : ¬schema.HasNaN)
    (h : r.schemaAt? schema.dest group = some schema) (before rest : List Schema) :
    r.registerMany group (before ++ schema :: rest) = r.registerMany group (before ++ rest) := by
  induction before generalizing r with
  | nil =>
    have hagain := register_again hname h
    rw [Schema.recognized_of_not_hasNaN hself] at hagain
    rw [List.nil_append, registerMany_cons_of_ok (congrArg Prod.fst hagain), hagain]
    rfl
  | cons first before ih =>
    rw [List.cons_append, List.cons_append]
    cases hfirst : (r.register first group).1 with
    | error e => rw [registerMany_cons_of_error hfirst, registerMany_cons_of_error hfirst]
    | ok isNew =>
      rw [registerMany_cons_of_ok hfirst, registerMany_cons_of_ok hfirst]
      exact ih (schemaAt?_register h first group)

theorem registerManyIn_without {given : Group} (hname : schema.isReserved = false)
    (hself : ¬schema.HasNaN) (h : r.schemaAt? schema.dest (some given.name) = some schema)
    (before rest : List Schema) :
    r.registerManyIn given (before ++ schema :: rest) =
      r.registerManyIn given (before ++ rest) := by
  rw [registerManyIn, registerManyIn, ensure_of_schemaAt? h]
  exact registerMany_without hname hself h before rest

end Again

end Registry

namespace Config

theorem schemaAt?_after {past later : List Step} {host : Host} {schema : Schema}
    {group : Option String}
    (hadded : ((after past).perform host (.change (.register schema group))).1.answer =
      .ok (.truth true))
    (hkept : ∀ step ∈ later, ¬step.operation.Removes schema.dest group) :
    schema.isReserved = false ∧
      (after (past ++ ⟨host, .change (.register schema group)⟩ :: later)).registry.schemaAt?
        schema.dest group = some schema := by
  have hanswer : ((after past).registry.register schema group).1 = .ok true := by
    rw [perform_change_answer, Registry.apply, Registry.apply.answered] at hadded
    cases hregister : ((after past).registry.register schema group).1 with
    | error e =>
      rw [hregister] at hadded
      cases hadded
    | ok isNew =>
      rw [hregister] at hadded
      cases hadded
      rfl
  obtain ⟨hname, hschema⟩ := Registry.schemaAt?_of_register_true hanswer
  refine ⟨hname, ?_⟩
  rw [registry_after_append, Registry.run_cons]
  exact Registry.schemaAt?_run hschema hkept

/-- An option that was added and not removed since may be registered again, by name, in a row or
with its group as a whole: it is known, and nothing changes, neither the registry with what
replaces its default and what it is locked to, nor any later answer. In a longer row it may as
well be left out. An option that does not equal itself is refused instead, and again nothing
changes. -/
theorem registered_again {past later : List Step} {host : Host} {schema : Schema}
    {group : Option String}
    (hadded : ((after past).perform host (.change (.register schema group))).1.answer =
      .ok (.truth true))
    (hkept : ∀ step ∈ later, ¬step.operation.Removes schema.dest group) :
    let config := after (past ++ ⟨host, .change (.register schema group)⟩ :: later)
    (∀ change answer, Change.Repeats schema group change answer → ∀ now : Host,
        (¬schema.HasNaN → (config.perform now (.change change)).1.answer = .ok answer) ∧
          (schema.HasNaN → (config.perform now (.change change)).1.answer =
            .error (.duplicateOption schema.name)) ∧
          (config.perform now (.change change)).2.registry = config.registry ∧
          ∀ next, ((config.perform now (.change change)).2.run next).1 = (config.run next).1) ∧
      (¬schema.HasNaN → ∀ (now : Host) (before rest : List Schema),
        config.perform now (.change (.registerMany (before ++ schema :: rest) group)) =
            config.perform now (.change (.registerMany (before ++ rest) group)) ∧
          ∀ given : Group, group = some given.name →
            config.perform now (.change (.registerManyIn (before ++ schema :: rest) given)) =
              config.perform now (.change (.registerManyIn (before ++ rest) given))) := by
  intro config
  obtain ⟨hname, hschema⟩ := schemaAt?_after hadded hkept
  have hcoherent : config.Coherent := coherent_after _
  constructor
  · intro change answer hrepeats now
    have happly := Registry.apply_repeats hname hschema hrepeats
    have hregistry : (config.perform now (.change change)).2.registry = config.registry :=
      (matches_change hcoherent now change).registry.trans (congrArg Prod.snd happly)
    have hanswer : (config.perform now (.change change)).1.answer =
        (fun _ => answer) <$> schema.recognized := by
      rw [perform_change_answer]
      exact congrArg Prod.fst happly
    refine ⟨fun hself => ?_, fun hnan => ?_, hregistry, ?_⟩
    · rw [hanswer, Schema.recognized_of_not_hasNaN hself]
      rfl
    · rw [hanswer, Schema.recognized_of_hasNaN hnan]
      rfl
    · exact run_congr (matches_change hcoherent now change).coherent hcoherent hregistry
  · intro hself now before rest
    constructor
    · refine perform_change_congr (by rfl) ?_ now
      exact congrArg (Registry.apply.answered fun _ => .done)
        (Registry.registerMany_without hname hself hschema before rest)
    · intro given hgroup
      subst hgroup
      refine perform_change_congr (by rfl) ?_ now
      exact congrArg (Registry.apply.answered fun _ => .done)
        (Registry.registerManyIn_without hname hself hschema before rest)

end Config

namespace Sample

/-- An option with doubles for bounds and in its default, the lower bound a zero with a sign. -/
def shares : Schema :=
  { Schema.ofName "shares" (.list (.float (some (-0.0)) (some 1.0))) with
    default := some (.array [.float (-0.0), .float 0.5]) }

/-- The option in a group, then locked. -/
def sharing : List Step :=
  registering shares (some "api") :: [locking "shares" (.array []) (some "api")]

/-- A text option whose default is a double that is no number, and is read as `nan`. -/
def ratio : Schema :=
  { Schema.ofName "ratio" Kind.text with default := some (.float (0.0 / 0.0)) }

end Sample

namespace Config

open Sample in
/-- An option with doubles in it is locked and registered again, with a title for its group. -/
theorem registered_again_shares :
    ((after []).perform bareHost (.change (.register shares (some "api")))).1.answer =
        .ok (.truth true) ∧
      ¬shares.HasNaN ∧
      ((after sharing).perform bareHost
          (.change (.registerManyIn [shares] { name := "api", title := "API" }))).1.answer =
        .ok .done ∧
      ((after sharing).perform bareHost
          (.change (.registerManyIn [shares] { name := "api", title := "API" }))).2.registry =
        (after sharing).registry ∧
      (after sharing).registry.entryAt? "shares" (some "api") =
        some { schema := shares, locked := some (.array []) } := by
  have hself : ¬shares.HasNaN := shares.beq_self_iff.1 (by decide)
  have hadded : ((after []).perform bareHost (.change (.register shares (some "api")))).1.answer =
      .ok (.truth true) := rfl
  have hkept : ∀ step ∈ [locking "shares" (.array []) (some "api")],
      ¬step.operation.Removes shares.dest (some "api") := by
    simp [locking, Operation.Removes]
  obtain ⟨hagain, -⟩ := registered_again hadded hkept
  obtain ⟨hknown, -, hregistry, -⟩ :=
    hagain _ _ (.registerManyIn { name := "api", title := "API" }) bareHost
  exact ⟨hadded, hself, hknown hself, hregistry, rfl⟩

open Sample in
/-- Not every option that was added is known when it is registered again: one whose default is no
number is refused as another option under its own dest. -/
theorem refused_again :
    ¬∀ (past later : List Step) (host : Host) (schema : Schema) (group : Option String),
      ((after past).perform host (.change (.register schema group))).1.answer =
          .ok (.truth true) →
        (∀ step ∈ later, ¬step.operation.Removes schema.dest group) →
          ((after (past ++ ⟨host, .change (.register schema group)⟩ :: later)).perform host
            (.change (.register schema group))).1.answer = .ok (.truth false) := by
  intro hall
  have hadded : ((after []).perform bareHost (.change (.register ratio none))).1.answer =
      .ok (.truth true) := rfl
  have hrefused : ((after [registering ratio none]).perform bareHost
      (.change (.register ratio none))).1.answer = .error (.duplicateOption "ratio") := rfl
  have hknown := hall [] [] bareHost ratio none hadded (fun _ hmem => nomatch hmem)
  cases hknown.symm.trans hrefused

end Config

end LayeredConfig
