import LayeredConfig.Host.FileTree
import LayeredConfig.Operation

/-!
# Runs of operations

A run is a finite list of operations, each with the host as it is when the
operation is carried out: between two operations files may change, appear and
go. `Config.run` carries a run out on a configuration, memo and all.

`Registry.run` carries the same run out on a registry alone. It has no memo:
every read resolves the option anew, and no read leaves anything behind. It is
the specification that the memo is measured against, and the registry that it
ends with is the state that statements about runs speak of.
-/

namespace LayeredConfig

/-- One operation of a run, with the host as it is at that moment. -/
structure Step where
  host : Host
  operation : Operation

/-- Whether an operation only reads. -/
def Operation.isRead : Operation → Bool
  | .read _ | .dump _ => true
  | _ => false

namespace Config

/-- Carry out operations in order: all outcomes, and the configuration at the end. -/
def run (config : Config) : List Step → List Outcome × Config
  | [] => ([], config)
  | step :: rest =>
    let (outcome, next) := config.perform step.host step.operation
    let (outcomes, last) := next.run rest
    (outcome :: outcomes, last)

/-- The configuration that a run from the empty one ends with. -/
def after (history : List Step) : Config :=
  (run {} history).2

@[simp] theorem run_nil (config : Config) : config.run [] = ([], config) := rfl

@[simp] theorem run_cons (config : Config) (step : Step) (rest : List Step) :
    config.run (step :: rest) =
      ((config.perform step.host step.operation).1 ::
          ((config.perform step.host step.operation).2.run rest).1,
        ((config.perform step.host step.operation).2.run rest).2) := rfl

theorem run_append (config : Config) (first rest : List Step) :
    config.run (first ++ rest) =
      ((config.run first).1 ++ ((config.run first).2.run rest).1,
        ((config.run first).2.run rest).2) := by
  induction first generalizing config with
  | nil => rfl
  | cons step first ih =>
    rw [List.cons_append, run_cons, ih, run_cons]
    rfl

end Config

namespace Registry

/-- The value of an option in a shape. -/
def readAs (r : Registry) (shape : Shape) (dest : String) (group : Option String) :
    Except ConfigError (Option Value) :=
  match r.read dest group with
  | .error e => .error e
  | .ok none => .ok none
  | .ok (some value) =>
    match shape.read? value with
    | some shaped => .ok (some shaped)
    | none => .error (.shapeMismatch dest)

/-- The options of a group that have a value. -/
def table (r : Registry) (group : String) : Except ConfigError (Table Value) :=
  match r.groupKeys? group with
  | .error e => .error e
  | .ok keys => Report.tableOf (m := Id) r.read group Table.empty keys

/-- The options of a group as a record. -/
def readRecord (r : Registry) (record : List (String × Shape)) (group : String) :
    Except ConfigError (List Value) :=
  match r.table group with
  | .error e => .error e
  | .ok fields =>
    match Shape.readRecord? record fields with
    | some values => .ok values
    | none => .error (.shapeMismatch group)

section Reports

variable (r : Registry)

theorem entries_cons (group : Option String) (entry : Entry)
    (rest : List (Option String × Entry)) :
    Report.entries (m := Id) r.read ((group, entry) :: rest) =
      match r.read entry.schema.dest group with
      | .error e => .error e
      | .ok value =>
        Except.map
          ((Report.key entry.schema.dest group, Report.shown entry.schema.secret value) :: ·)
          (Report.entries (m := Id) r.read rest) := rfl

theorem dumpLines_cons (group : Option String) (entry : Entry)
    (rest : List (Option String × Entry)) :
    Report.dumpLines (m := Id) r.read ((group, entry) :: rest) =
      (Report.padded 30 (Report.key entry.schema.dest group) ++ " = " ++
        match r.read entry.schema.dest group with
        | .ok value => Report.shown entry.schema.secret value
        | .error e => "<error: " ++ e.message ++ ">") ::
      Report.dumpLines (m := Id) r.read rest := rfl

theorem tableOf_cons (group : String) (table : Table Value) (dest : String)
    (rest : List String) :
    Report.tableOf (m := Id) r.read group table (dest :: rest) =
      match r.read dest (some group) with
      | .error e => .error e
      | .ok none => Report.tableOf (m := Id) r.read group table rest
      | .ok (some value) =>
        Report.tableOf (m := Id) r.read group (table.insert dest value) rest := rfl

end Reports

/-- Answer a query, resolving every option that it asks for. -/
def ask (r : Registry) : Query → Except ConfigError Answer
  | .value dest group => Answer.value <$> r.read dest group
  | .valueAs shape dest group => Answer.value <$> r.readAs shape dest group
  | .table group => Answer.table <$> r.table group
  | .record fields group => Answer.record <$> r.readRecord fields group
  | .report action => Answer.report <$> Report.make (m := Id) r.read r action

/-- Carry out an operation. Reads leave the registry as it is. -/
def perform (r : Registry) (host : Host) : Operation → Config.Outcome × Registry
  | .change change => ({ answer := (r.apply change).1 }, (r.apply change).2)
  | .read query => ({ answer := r.ask query }, r)
  | .dump level =>
    ({ answer := .ok .done, events := Report.dump (m := Id) r.read r level }, r)
  | .parse files validating =>
    ({ answer := (fun _ => .done) <$> (r.parse host files validating).1
       events := r.parseEvents host files validating }, (r.parse host files validating).2)
  | .reload files => reloading files
  | .reloadFiles => reloading r.files
where
  reloading (files : List String) : Config.Outcome × Registry :=
    ({ answer := .ok (.truth (r.reload host files).1), events := r.reloadEvents host files },
      (r.reload host files).2)

/-- Carry out operations in order: all outcomes, and the registry at the end. -/
def run (r : Registry) : List Step → List Config.Outcome × Registry
  | [] => ([], r)
  | step :: rest =>
    let (outcome, next) := r.perform step.host step.operation
    let (outcomes, last) := next.run rest
    (outcome :: outcomes, last)

@[simp] theorem run_nil (r : Registry) : r.run [] = ([], r) := rfl

@[simp] theorem run_cons (r : Registry) (step : Step) (rest : List Step) :
    r.run (step :: rest) =
      ((r.perform step.host step.operation).1 ::
          ((r.perform step.host step.operation).2.run rest).1,
        ((r.perform step.host step.operation).2.run rest).2) := rfl

theorem perform_isRead {r : Registry} {host : Host} {operation : Operation}
    (h : operation.isRead = true) : (r.perform host operation).2 = r := by
  cases operation with
  | read query => rfl
  | dump level => rfl
  | change change => cases h
  | parse files validating => cases h
  | reload files => cases h
  | reloadFiles => cases h

theorem run_filter_reads (r : Registry) (history : List Step) :
    (r.run (history.filter fun step => !step.operation.isRead)).2 = (r.run history).2 := by
  induction history generalizing r with
  | nil => rfl
  | cons step rest ih =>
    cases hread : step.operation.isRead with
    | true =>
      rw [List.filter_cons_of_neg (by simp [hread]), ih, run_cons, perform_isRead hread]
    | false =>
      rw [List.filter_cons_of_pos (by simp [hread]), run_cons, run_cons]
      exact ih _

end Registry

namespace Sample

/-- A host without files. -/
def bareHost : Host :=
  ({} : FileTree).host "/" "/"

/-- An integer option with a default. -/
def port : Schema :=
  { Schema.ofName "port" (.integer none none) with default := some (.integer 80) }

/-- Another option under the same dest. -/
def secretPort : Schema :=
  { port with secret := true }

def registering (schema : Schema) (group : Option String) : Step :=
  ⟨bareHost, .change (.register schema group)⟩

def reading (dest : String) (group : Option String) : Step :=
  ⟨bareHost, .read (.value dest group)⟩

def locking (dest : String) (value : Value) (group : Option String) : Step :=
  ⟨bareHost, .change (.lock dest value group)⟩

end Sample

end LayeredConfig
