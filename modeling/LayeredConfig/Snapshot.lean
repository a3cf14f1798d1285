import LayeredConfig.Event
import LayeredConfig.Host
import LayeredConfig.Layers
import LayeredConfig.Value

/-!
# Snapshots

A snapshot is the result of one pass over a list of files. Every file is read on
its own first (`Host.reading`); the readings then decide everything. The first
file that is malformed, or unreadable for a reason other than that it is missing
or guarded, makes the pass fail. Missing and guarded files are only noted, so
that one error can name all of them.
-/

namespace LayeredConfig

/-- How taking in one file turns out. -/
inductive Reading where
  | source (source : Source)
  | missing
  | denied
  | failed (cause : ConfigError)

namespace Host

/-- Take in the file at a fixed path. -/
def reading (host : Host) (path : String) : Reading :=
  match host.read path with
  | .notFound => .missing
  | .denied => .denied
  | .failed cause => .failed (.unreadable path cause)
  | .content content =>
    match Source.read path content with
    | .ok source => .source source
    | .error fault => .failed (.parse path fault)

/-- Take in files, each with its fixed path. -/
def readings (host : Host) (files : List String) : List (String × Reading) :=
  files.map fun file => (host.fixPath file, host.reading (host.fixPath file))

end Host

namespace Reading

def source? : Reading → Option Source
  | source s => some s
  | _ => none

def failure? : Reading → Option ConfigError
  | failed cause => some cause
  | _ => none

def isMissing : Reading → Bool
  | missing => true
  | _ => false

def isDenied : Reading → Bool
  | denied => true
  | _ => false

/-- The event that taking in a file at a path leaves. -/
def event? (path : String) : Reading → Option Event
  | source s => some ⟨.debug, "parsed config file",
      [("path", path), ("sections", String.ofList (Nat.toDigits 10 s.sections.size))]⟩
  | missing => some ⟨.debug, "config file not found", [("path", path)]⟩
  | denied => some ⟨.debug, "config file permission denied", [("path", path)]⟩
  | failed _ => none

end Reading

/-- The files of one pass. -/
structure Snapshot where
  layers : Layers := {}
  /-- The fixed path of every file, in the order given. -/
  files : List String := []
  missing : List String := []
  denied : List String := []

namespace Snapshot

def ofReadings (readings : List (String × Reading)) : Snapshot where
  layers := Layers.ofReading (readings.filterMap fun r => r.2.source?)
  files := readings.map Prod.fst
  missing := (readings.filter fun r => r.2.isMissing).map Prod.fst
  denied := (readings.filter fun r => r.2.isDenied).map Prod.fst

/-- Take in files in order, later ones on top of earlier ones. -/
def load (host : Host) (files : List String) : Except ConfigError Snapshot :=
  let readings := host.readings files
  match readings.findSome? fun r => r.2.failure? with
  | some cause => .error cause
  | none => .ok (ofReadings readings)

/-- The events of taking in files: one for each, up to the first that fails. -/
def loadEvents (host : Host) (files : List String) : List Event :=
  ((host.readings files).takeWhile fun r => r.2.failure?.isNone).filterMap fun r =>
    r.2.event? r.1

/-- Every file could be opened; missing files are complained of first. -/
def checkAccess (snapshot : Snapshot) : Except ConfigError Unit :=
  if snapshot.missing ≠ [] then .error (.filesNotFound snapshot.missing)
  else if snapshot.denied ≠ [] then .error (.filesDenied snapshot.denied)
  else .ok ()

/-- If files of both sorts are there, an event names those that the error does not. -/
def accessEvents (snapshot : Snapshot) : List Event :=
  if snapshot.missing ≠ [] ∧ snapshot.denied ≠ [] then
    [⟨.warn, "config files could not be opened",
      [("files", Text.quotedPaths snapshot.denied)]⟩]
  else []

/-- The text that the files give for the first candidate they assign: the last assignment, or
the row of all of them. A candidate without a section stands for one in `DEFAULT`. -/
def value? (snapshot : Snapshot) (names : List (Option String × String)) (collect : Bool) :
    Option Value :=
  let candidates := names.map fun (name, key) => (name.getD defaultSection, key)
  match snapshot.layers.lookup candidates collect with
  | none => none
  | some values =>
    if collect then some (.array (values.map .string)) else values.getLast?.map .string

end Snapshot

end LayeredConfig
