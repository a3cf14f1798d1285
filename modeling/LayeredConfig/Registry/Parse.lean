import LayeredConfig.Registry

/-!
# Parsing files into a registry

A parse takes in its files without touching the registry, checks the result, and
installs it only if every check passes. The checks come in this order: no file
failed, none is missing, none is guarded; then, if defaults are to be validated,
every default and everything that replaces one converts; last, every required
option has a value, where what replaces a default counts as one.
-/

namespace LayeredConfig

namespace Registry

/-- Every default, and everything that replaces one, converts. -/
def checkDefaults : List (Option String × Entry) → Except ConfigError Unit
  | [] => .ok ()
  | (_, entry) :: rest =>
    match (entry.schema.default.toList ++ entry.override.toList).mapM entry.convertDefault with
    | .error e => .error e
    | .ok _ => checkDefaults rest

/-- A required option would have a value under a snapshot. -/
def checkRequiredEntry (snapshot : Snapshot) (validating : Bool) (group : Option String)
    (entry : Entry) : Except ConfigError Unit :=
  if !entry.schema.required || entry.override.isSome then .ok ()
  else
    match entry.resolve group (some snapshot) validating with
    | .error e => .error e
    | .ok none => .error (.requiredMissing entry.schema.name group)
    | .ok (some _) => .ok ()

/-- Every required option would have a value under a snapshot. -/
def checkRequired (snapshot : Snapshot) (validating : Bool) :
    List (Option String × Entry) → Except ConfigError Unit
  | [] => .ok ()
  | (group, entry) :: rest =>
    match checkRequiredEntry snapshot validating group entry with
    | .error e => .error e
    | .ok _ => checkRequired snapshot validating rest

/-- All checks on a snapshot that was taken. -/
def check (r : Registry) (snapshot : Snapshot) (validating : Bool) : Except ConfigError Unit := do
  snapshot.checkAccess
  if validating then checkDefaults r.all
  checkRequired snapshot validating r.all

/-- Parse files and put them in force. -/
def parse (r : Registry) (host : Host) (files : List String) (validating : Bool) :
    Except ConfigError Unit × Registry :=
  match Snapshot.load host files with
  | .error e => (.error e, r)
  | .ok snapshot =>
    match r.check snapshot validating with
    | .error e => (.error e, r)
    | .ok _ => (.ok (), { r with snapshot := some snapshot, validating })

/-- The events of a parse. -/
def parseEvents (r : Registry) (host : Host) (files : List String) (validating : Bool) :
    List Event :=
  let access := match Snapshot.load host files with
    | .error _ => []
    | .ok snapshot => snapshot.accessEvents
  let installed := match (r.parse host files validating).1 with
    | .error _ => []
    | .ok _ => [⟨.info, "installed config namespace",
        [("files", String.ofList (Nat.toDigits 10 files.length))]⟩]
  Snapshot.loadEvents host files ++ access ++ installed

/-- Parse files in the mode in force. The answer says whether that worked; if not, everything
stays as it was. -/
def reload (r : Registry) (host : Host) (files : List String) : Bool × Registry :=
  match r.parse host files r.validating with
  | (.ok _, r') => (true, r')
  | (.error _, r') => (false, r')

/-- The events of a reload: those of the parse, and a warning if it failed. -/
def reloadEvents (r : Registry) (host : Host) (files : List String) : List Event :=
  r.parseEvents host files r.validating ++
    match (r.parse host files r.validating).1 with
    | .ok _ => []
    | .error e => [⟨.warn, "failed to reload config files", [("error", e.message)]⟩]

/-- Reload the files in force. -/
def reloadFiles (r : Registry) (host : Host) : Bool × Registry :=
  r.reload host r.files

end Registry

end LayeredConfig
