import LayeredConfig.Proofs.Parse
import LayeredConfig.Proofs.Run

/-!
# The memo is invisible

A memo is coherent if everything that it remembers is what resolving the option
now would give. Reads keep a memo coherent because what they remember is what
they have just resolved; every operation that may change a value leaves an empty
memo, which remembers nothing wrong.

`Gives r program answer` says of a program that reads a configuration that its
answer depends on the registry `r` alone: whatever coherent memo the program
starts from, it gives that answer and leaves the registry and a coherent memo.
`Gives.bind` composes such programs, so that a report, which reads many options
one after the other, needs no further thought about the memo.
-/

namespace LayeredConfig

namespace Config

variable {α β : Type}

/-- Everything that is remembered is what resolving it now gives. -/
def Coherent (config : Config) : Prop :=
  ∀ dest group value, config.memo.lookup (group, dest) = some value →
    config.registry.read dest group = .ok value

theorem coherent_of_memo_eq_nil {config : Config} (h : config.memo = []) : config.Coherent := by
  intro dest group value hmemo
  rw [h] at hmemo
  cases hmemo

theorem Coherent.remember {config : Config} (h : config.Coherent) {dest : String}
    {group : Option String} {value : Option Value}
    (hread : config.registry.read dest group = .ok value) :
    Coherent { config with memo := ((group, dest), value) :: config.memo } := by
  intro dest' group' value' hmemo
  rw [List.lookup_cons] at hmemo
  split at hmemo
  · next hkey =>
    obtain ⟨rfl, rfl⟩ := Prod.mk.inj (eq_of_beq hkey)
    cases hmemo
    exact hread
  · exact h dest' group' value' hmemo

/-- A result on a configuration matches one on a registry: the answer and the registry are the
same, and the memo is coherent. -/
structure Matches (result : α × Config) (specified : α × Registry) : Prop where
  answer : result.1 = specified.1
  registry : result.2.registry = specified.2
  coherent : result.2.Coherent

/-- A program gives an answer about a registry and leaves the registry alone, whatever coherent
memo it starts from. -/
def Gives (r : Registry) (program : StateM Config α) (answer : α) : Prop :=
  ∀ config : Config, config.Coherent → config.registry = r →
    Matches (program.run config) (answer, r)

theorem gives_pure (r : Registry) (answer : α) : Gives r (pure answer) answer :=
  fun _ hcoherent hregistry => ⟨rfl, hregistry, hcoherent⟩

theorem Gives.bind {r : Registry} {program : StateM Config α} {next : α → StateM Config β}
    {x : α} {answer : β} (first : Gives r program x) (rest : Gives r (next x) answer) :
    Gives r (program >>= next) answer := by
  intro config hcoherent hregistry
  obtain ⟨hx, hregistry', hcoherent'⟩ := first config hcoherent hregistry
  have hnext : Gives r (next (program.run config).1) answer := hx.symm ▸ rest
  exact hnext (program.run config).2 hcoherent' hregistry'

/-- Of the configuration itself a reading program may use the registry only. -/
theorem gives_get_bind {r : Registry} {answer : β} (next : Registry → StateM Config β)
    (rest : Gives r (next r) answer) :
    Gives r (do next (← get).registry) answer := by
  intro config hcoherent hregistry
  subst hregistry
  exact rest config hcoherent rfl

theorem gives_read (r : Registry) (dest : String) (group : Option String) :
    Gives r (read dest group) (r.read dest group) := by
  intro config hcoherent hregistry
  subst hregistry
  simp only [StateT.run, read, Registry.read]
  cases hentry : config.registry.entry? dest group with
  | error e => exact ⟨rfl, rfl, hcoherent⟩
  | ok entry =>
    cases hmemo : config.memo.lookup (group, dest) with
    | some value =>
      have hread := hcoherent dest group value hmemo
      simp only [Registry.read, hentry] at hread
      exact ⟨hread.symm, rfl, hcoherent⟩
    | none =>
      cases hvalue : entry.resolve group config.registry.snapshot config.registry.validating with
      | error e =>
        simp only [hvalue]
        exact ⟨rfl, rfl, hcoherent⟩
      | ok value =>
        have hread : config.registry.read dest group = .ok value := by
          simp only [Registry.read, hentry]
          exact hvalue
        simp only [hvalue]
        exact ⟨rfl, rfl, hcoherent.remember hread⟩

theorem gives_readAs (r : Registry) (shape : Shape) (dest : String) (group : Option String) :
    Gives r (readAs shape dest group) (r.readAs shape dest group) := by
  refine (gives_read r dest group).bind ?_
  rw [Registry.readAs]
  rcases r.read dest group with e | (_ | value)
  · exact gives_pure r _
  · exact gives_pure r _
  · cases hshape : shape.read? value with
    | none => simpa only [hshape] using gives_pure r _
    | some shaped => simpa only [hshape] using gives_pure r _

theorem gives_entries (r : Registry) (options : List (Option String × Entry)) :
    Gives r (Report.entries read options) (Report.entries (m := Id) r.read options) := by
  induction options with
  | nil => exact gives_pure r _
  | cons option rest ih =>
    obtain ⟨group, entry⟩ := option
    refine (gives_read r entry.schema.dest group).bind ?_
    rw [Registry.entries_cons]
    cases r.read entry.schema.dest group with
    | error e => exact gives_pure r _
    | ok value => exact ih.bind (gives_pure r _)

theorem gives_dumpLines (r : Registry) (options : List (Option String × Entry)) :
    Gives r (Report.dumpLines read options) (Report.dumpLines (m := Id) r.read options) := by
  induction options with
  | nil => exact gives_pure r _
  | cons option rest ih =>
    obtain ⟨group, entry⟩ := option
    rw [Registry.dumpLines_cons]
    exact (gives_read r entry.schema.dest group).bind (ih.bind (gives_pure r _))

theorem gives_tableOf (r : Registry) (group : String) (fields : Table Value)
    (dests : List String) :
    Gives r (Report.tableOf read group fields dests)
      (Report.tableOf (m := Id) r.read group fields dests) := by
  induction dests generalizing fields with
  | nil => exact gives_pure r _
  | cons dest rest ih =>
    refine (gives_read r dest (some group)).bind ?_
    rw [Registry.tableOf_cons]
    rcases r.read dest (some group) with e | (_ | value)
    · exact gives_pure r _
    · exact ih fields
    · exact ih (fields.insert dest value)

theorem gives_table (r : Registry) (group : String) : Gives r (table group) (r.table group) := by
  intro config hcoherent hregistry
  subst hregistry
  rw [Registry.table]
  cases hkeys : config.registry.groupKeys? group with
  | error e =>
    have hrun : (table group).run config = (.error e, config) := by
      simp only [table, StateT.run_bind, StateT.run_get, pure_bind, hkeys]
      rfl
    rw [hrun]
    exact ⟨rfl, rfl, hcoherent⟩
  | ok keys =>
    have hrun : (table group).run config =
        (Report.tableOf read group Table.empty keys).run config := by
      simp only [table, StateT.run_bind, StateT.run_get, pure_bind, hkeys]
    rw [hrun]
    exact gives_tableOf config.registry group Table.empty keys config hcoherent rfl

theorem gives_readRecord (r : Registry) (record : List (String × Shape)) (group : String) :
    Gives r (readRecord record group) (r.readRecord record group) := by
  refine (gives_table r group).bind ?_
  rw [Registry.readRecord]
  cases r.table group with
  | error e => exact gives_pure r _
  | ok fields =>
    cases hrecord : Shape.readRecord? record fields with
    | none => simpa only [hrecord] using gives_pure r _
    | some values => simpa only [hrecord] using gives_pure r _

theorem gives_handle (r : Registry) (action : Action) :
    Gives r (handle action) (Report.make (m := Id) r.read r action) := by
  refine gives_get_bind (fun r => Report.make read r action) ?_
  cases action with
  | list => exact (gives_entries r r.all).bind (gives_pure r _)
  | sections => exact gives_pure r _
  | get key =>
    simp only [Report.make]
    cases r.entry? (Report.place r key).1 (Report.place r key).2 with
    | error e => exact gives_pure r _
    | ok entry => exact (gives_read r _ _).bind (gives_pure r _)

theorem gives_dump (r : Registry) (level : Level) :
    Gives r (dump level) (Report.dump (m := Id) r.read r level) := by
  refine gives_get_bind (fun r => Report.dump read r level) ?_
  exact (gives_dumpLines r r.all).bind (gives_pure r _)

theorem gives_ask (r : Registry) (query : Query) : Gives r (ask query) (r.ask query) := by
  cases query with
  | value dest group => exact (gives_read r dest group).bind (gives_pure r _)
  | valueAs shape dest group => exact (gives_readAs r shape dest group).bind (gives_pure r _)
  | table group => exact (gives_table r group).bind (gives_pure r _)
  | record fields group => exact (gives_readRecord r fields group).bind (gives_pure r _)
  | report action => exact (gives_handle r action).bind (gives_pure r _)

theorem matches_parse {config : Config} (h : config.Coherent) (host : Host) (files : List String)
    (validating : Bool) :
    Matches (config.parse host files validating)
      (config.registry.parse host files validating) := by
  rw [parse]
  obtain ⟨e, hparse⟩ | ⟨snapshot, -, -, hparse⟩ :=
    config.registry.parse_cases host files validating
  · rw [hparse]
    exact ⟨rfl, rfl, h⟩
  · rw [hparse]
    exact ⟨rfl, rfl, coherent_of_memo_eq_nil rfl⟩

theorem matches_reload {config : Config} (h : config.Coherent) (host : Host)
    (files : List String) :
    Matches (config.reload host files) (config.registry.reload host files) := by
  have hparse := matches_parse h host files config.registry.validating
  rw [reload, Registry.reload]
  revert hparse
  generalize config.parse host files config.registry.validating = result
  generalize config.registry.parse host files config.registry.validating = specified
  obtain ⟨answer, config'⟩ := result
  obtain ⟨answer', r'⟩ := specified
  rintro ⟨hanswer, hregistry, hcoherent⟩
  cases hanswer
  cases answer with
  | error e => exact ⟨rfl, hregistry, hcoherent⟩
  | ok _ => exact ⟨rfl, hregistry, hcoherent⟩

theorem matches_reloading {config : Config} (h : config.Coherent) (host : Host)
    (files : List String) :
    Matches (perform.reloading config host files)
      (Registry.perform.reloading config.registry host files) := by
  obtain ⟨hanswer, hregistry, hcoherent⟩ := matches_reload h host files
  exact ⟨congrArg (fun answer => ({
    answer := .ok (.truth answer)
    events := config.registry.reloadEvents host files } : Outcome)) hanswer,
    hregistry, hcoherent⟩

theorem apply_isRefused (r : Registry) {change : Change} (h : change.isRefused = true) :
    (r.apply change).2 = r := by
  cases change with
  | register schema group =>
    have hreserved : schema.isReserved = true := h
    simp [Registry.apply, Registry.apply.answered, Registry.register, hreserved]
  | registerIn schema group =>
    have hreserved : schema.isReserved = true := h
    simp [Registry.apply, Registry.apply.answered, Registry.registerIn, hreserved]
  | _ => cases h

theorem matches_change {config : Config} (h : config.Coherent) (host : Host) (change : Change) :
    Matches (config.perform host (.change change))
      (config.registry.perform host (.change change)) := by
  rw [perform, Registry.perform]
  split
  · next hrefused => exact ⟨rfl, (apply_isRefused config.registry hrefused).symm, h⟩
  · exact ⟨rfl, rfl, coherent_of_memo_eq_nil rfl⟩

/-- One operation: the memo changes no answer and no event, and stays coherent. -/
theorem matches_perform {config : Config} (h : config.Coherent) (host : Host)
    (operation : Operation) :
    Matches (config.perform host operation) (config.registry.perform host operation) := by
  cases operation with
  | change change => exact matches_change h host change
  | read query =>
    obtain ⟨hanswer, hregistry, hcoherent⟩ := gives_ask config.registry query config h rfl
    exact ⟨congrArg (fun answer => ({ answer } : Outcome)) hanswer, hregistry, hcoherent⟩
  | dump level =>
    obtain ⟨hevents, hregistry, hcoherent⟩ := gives_dump config.registry level config h rfl
    exact ⟨congrArg (fun events => ({ answer := .ok .done, events } : Outcome)) hevents,
      hregistry, hcoherent⟩
  | parse files validating =>
    obtain ⟨hanswer, hregistry, hcoherent⟩ := matches_parse h host files validating
    exact ⟨congrArg (fun answer => ({
      answer := (fun _ => .done) <$> answer
      events := config.registry.parseEvents host files validating } : Outcome)) hanswer,
      hregistry, hcoherent⟩
  | reload files => exact matches_reloading h host files
  | reloadFiles => exact matches_reloading h host config.registry.files

/-- The memo changes nothing on any run. -/
theorem matches_run {config : Config} (h : config.Coherent) (steps : List Step) :
    Matches (config.run steps) (config.registry.run steps) := by
  induction steps generalizing config with
  | nil => exact ⟨rfl, rfl, h⟩
  | cons step rest ih =>
    obtain ⟨hanswer, hregistry, hcoherent⟩ := matches_perform h step.host step.operation
    obtain ⟨hanswers, hlast, hend⟩ := ih hcoherent
    rw [hregistry] at hanswers hlast
    rw [run_cons, Registry.run_cons]
    refine ⟨?_, hlast, hend⟩
    show _ :: _ = _ :: _
    rw [hanswer, hanswers]

theorem coherent_after (history : List Step) : (after history).Coherent :=
  (matches_run (coherent_of_memo_eq_nil rfl) history).coherent

theorem registry_after (history : List Step) :
    (after history).registry = (({} : Registry).run history).2 :=
  (matches_run (coherent_of_memo_eq_nil rfl) history).registry

theorem registry_after_append (past later : List Step) :
    (after (past ++ later)).registry = ((after past).registry.run later).2 := by
  rw [after, run_append]
  exact (matches_run (coherent_after past) later).registry

/-- Configurations with the same registry answer alike, whatever their coherent memos hold. -/
theorem run_congr {config config' : Config} (h : config.Coherent) (h' : config'.Coherent)
    (hregistry : config.registry = config'.registry) (steps : List Step) :
    (config.run steps).1 = (config'.run steps).1 := by
  rw [(matches_run h steps).answer, (matches_run h' steps).answer, hregistry]

/-- On every run from the empty configuration the memo is invisible. The outcomes and the registry
are those of a registry without a memo; a read at the end gives exactly what resolving the option
gives, or the error that there is none; and leaving out reads of the past, any of them and
anywhere, changes no later outcome. -/
theorem memo_invisible (history : List Step) :
    (run {} history).1 = (({} : Registry).run history).1 ∧
      (after history).registry = (({} : Registry).run history).2 ∧
      (∀ dest group, ((read dest group).run (after history)).1 =
        match (after history).registry.entry? dest group with
        | .error e => .error e
        | .ok entry => entry.resolve group (after history).registry.snapshot
            (after history).registry.validating) ∧
      ∀ past, past.filter (fun step => !step.operation.isRead) =
          history.filter (fun step => !step.operation.isRead) →
        ∀ later, ((after past).run later).1 = ((after history).run later).1 := by
  refine ⟨?_, registry_after history, ?_, ?_⟩
  · exact (matches_run (coherent_of_memo_eq_nil rfl) history).answer
  · intro dest group
    exact (gives_read _ dest group (after history) (coherent_after history) rfl).answer
  · intro past hpast later
    refine run_congr (coherent_after past) (coherent_after history) ?_ later
    rw [registry_after, registry_after, ← Registry.run_filter_reads, hpast,
      Registry.run_filter_reads]

open Sample in
/-- A value that was read before the option was locked is not read again. -/
theorem memo_invisible_read_lock_read :
    let past := [registering port none, locking "port" (.integer 1) none]
    let history := [registering port none, reading "port" none, locking "port" (.integer 1) none]
    past.filter (fun step => !step.operation.isRead) =
        history.filter (fun step => !step.operation.isRead) ∧
      ((after past).run [reading "port" none]).1 = ((after history).run [reading "port" none]).1 ∧
      ((read "port" none).run (after history)).1 = .ok (some (.integer 1)) :=
  ⟨rfl, (memo_invisible _).2.2.2 _ rfl _, (memo_invisible _).2.2.1 _ _⟩

end Config

end LayeredConfig
