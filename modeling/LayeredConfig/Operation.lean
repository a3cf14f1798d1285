import LayeredConfig.Config

/-!
# Operations

What a caller can do with a configuration, as data, so that a whole run can be
spoken about. `Config.perform` carries out one operation on a host: it gives the
answer, the events on the way, and the configuration afterwards.

A change forgets what was read, whether it succeeds or not; only a registration
refused for its name does not come so far.
-/

namespace LayeredConfig

/-- Changes of a registry that need no files. -/
inductive Change where
  | register (schema : Schema) (group : Option String)
  | registerIn (schema : Schema) (group : Group)
  | registerMany (schemas : List Schema) (group : Option String)
  | registerManyIn (schemas : List Schema) (group : Group)
  | registerGroup (group : Group)
  | unregister (schemas : List Schema) (group : Option String)
  | setDefault (dest : String) (value : Value) (group : Option String)
  | clearDefault (dest : String) (group : Option String)
  | lock (dest : String) (value : Value) (group : Option String)
  | unlock (dest : String) (group : Option String)
  | clear
  | reset

/-- What a read asks for. -/
inductive Query where
  | value (dest : String) (group : Option String)
  | valueAs (shape : Shape) (dest : String) (group : Option String)
  | table (group : String)
  | record (fields : List (String × Shape)) (group : String)
  | report (action : Action)

inductive Operation where
  | change (change : Change)
  | read (query : Query)
  | dump (level : Level)
  | parse (files : List String) (validating : Bool)
  | reload (files : List String)
  | reloadFiles

/-- What an operation answers. -/
inductive Answer where
  | done
  | truth (b : Bool)
  | value (value : Option Value)
  | table (table : Table Value)
  | record (values : List Value)
  | report (report : Report)

/-- Whether a change is refused by its name alone, before the registry is looked at. -/
def Change.isRefused : Change → Bool
  | .register schema _ | .registerIn schema _ => schema.isReserved
  | _ => false

/-- Make a change. -/
def Registry.apply (r : Registry) : Change → Except ConfigError Answer × Registry
  | .register schema group => answered .truth (r.register schema group)
  | .registerIn schema group => answered .truth (r.registerIn schema group)
  | .registerMany schemas group => answered (fun _ => .done) (r.registerMany group schemas)
  | .registerManyIn schemas group => answered (fun _ => .done) (r.registerManyIn group schemas)
  | .registerGroup group => (.ok .done, r.ensure group)
  | .unregister schemas group => answered (fun _ => .done) (r.unregister schemas group)
  | .setDefault dest value group => answered (fun _ => .done) (r.setDefault dest value group)
  | .clearDefault dest group => answered (fun _ => .done) (r.clearDefault dest group)
  | .lock dest value group => answered (fun _ => .done) (r.lock dest value group)
  | .unlock dest group => answered (fun _ => .done) (r.unlock dest group)
  | .clear => (.ok .done, r.clear)
  | .reset => (.ok .done, r.reset)
where
  answered {α : Type} (f : α → Answer) (outcome : Except ConfigError α × Registry) :
      Except ConfigError Answer × Registry :=
    (f <$> outcome.1, outcome.2)

namespace Config

/-- Answer a query. -/
def ask : Query → StateM Config (Except ConfigError Answer)
  | .value dest group => return Answer.value <$> (← read dest group)
  | .valueAs shape dest group => return Answer.value <$> (← readAs shape dest group)
  | .table group => return Answer.table <$> (← table group)
  | .record fields group => return Answer.record <$> (← readRecord fields group)
  | .report action => return Answer.report <$> (← handle action)

/-- How an operation turns out. -/
structure Outcome where
  answer : Except ConfigError Answer
  events : List Event := []

/-- Carry out an operation. -/
def perform (config : Config) (host : Host) : Operation → Outcome × Config
  | .change change =>
    if change.isRefused then ({ answer := (config.registry.apply change).1 }, config)
    else
      let (answer, config') := config.change fun r => r.apply change
      ({ answer }, config')
  | .read query =>
    let (answer, config') := ask query config
    ({ answer }, config')
  | .dump level =>
    let (events, config') := dump level config
    ({ answer := .ok .done, events }, config')
  | .parse files validating =>
    let (answer, config') := config.parse host files validating
    ({ answer := (fun _ => .done) <$> answer
       events := config.registry.parseEvents host files validating }, config')
  | .reload files => reloading files
  | .reloadFiles => reloading config.registry.files
where
  reloading (files : List String) : Outcome × Config :=
    let (answer, config') := config.reload host files
    ({ answer := .ok (.truth answer), events := config.registry.reloadEvents host files }, config')

end Config

end LayeredConfig
