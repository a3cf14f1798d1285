import LayeredConfig.Proofs.Order
import LayeredConfig.Proofs.Precedence

/-!
# The verdict of a parse

`Registry.complaints` lists everything that is wrong with a parse: with single
files, with the missing files and the guarded files taken together, with
defaults, and with required options. Each part of the list is said of a file or
an option by itself. A parse succeeds exactly if the list is empty and otherwise
fails with the first of it, so the order of the list is all that there is to say
about which of several problems is reported.
-/

namespace LayeredConfig

/-- The outcome of a check that fails with the first of its complaints. -/
def verdict : List ConfigError → Except ConfigError Unit
  | [] => .ok ()
  | e :: _ => .error e

@[simp] theorem verdict_nil : verdict [] = .ok () := rfl

@[simp] theorem verdict_cons (e : ConfigError) (rest : List ConfigError) :
    verdict (e :: rest) = .error e := rfl

theorem verdict_append (first second : List ConfigError) :
    verdict (first ++ second) = (do verdict first; verdict second) := by
  cases first with
  | nil => rfl
  | cons e rest => rfl

theorem verdict_eq_ok_iff {complaints : List ConfigError} :
    verdict complaints = .ok () ↔ complaints = [] := by
  cases complaints with
  | nil => simp
  | cons e rest => simp

/-- What is wrong with an outcome. -/
def complaint? {α : Type} : Except ConfigError α → Option ConfigError
  | .ok _ => none
  | .error e => some e

@[simp] theorem complaint?_ok {α : Type} (x : α) : complaint? (.ok x) = none := rfl

theorem complaint?_mapError_eq_none_iff {ε α : Type} {f : ε → ConfigError}
    {outcome : Except ε α} : complaint? (outcome.mapError f) = none ↔ ∃ x, outcome = .ok x := by
  cases outcome with
  | ok x => exact ⟨fun _ => ⟨x, rfl⟩, fun _ => rfl⟩
  | error cause =>
    constructor
    · intro h
      cases h
    · rintro ⟨x, hx⟩
      cases hx

/-- Going through a list stops at the first outcome that is an error. -/
theorem verdict_filterMap_complaint? {α β : Type} (f : α → Except ConfigError β) (xs : List α) :
    verdict (xs.filterMap fun x => complaint? (f x)) = discard (xs.mapM f) := by
  induction xs with
  | nil => rfl
  | cons x rest ih =>
    rw [List.mapM_cons, List.filterMap_cons]
    cases f x with
    | error e => rfl
    | ok y =>
      simp only [complaint?_ok, ih]
      cases rest.mapM f with
      | error e => rfl
      | ok ys => rfl

namespace Entry

variable (entry : Entry)

/-- What is wrong with the default of an option, and then with what replaces it. -/
def badDefaults : List ConfigError :=
  (entry.schema.default.toList ++ entry.override.toList).filterMap fun value =>
    complaint? ((entry.schema.convert value).mapError (.invalidDefault entry.schema.name))

/-- What is wrong with a required option under a snapshot. Whatever replaces its default counts as
a value. -/
def lack? (group : Option String) (snapshot : Snapshot) (validating : Bool) :
    Option ConfigError :=
  if entry.schema.required ∧ entry.override.isNone then
    match entry.resolve group (some snapshot) validating with
    | .error e => some e
    | .ok none => some (.requiredMissing entry.schema.name group)
    | .ok (some _) => none
  else none

variable {entry}

theorem badDefaults_eq_nil_iff :
    entry.badDefaults = [] ↔
      ∀ value ∈ entry.schema.default.toList ++ entry.override.toList,
        ∃ converted, entry.schema.convert value = .ok converted := by
  rw [badDefaults, List.filterMap_eq_nil_iff]
  exact forall₂_congr fun value _ => complaint?_mapError_eq_none_iff

theorem lack?_eq_none_iff {group : Option String} {snapshot : Snapshot} {validating : Bool} :
    entry.lack? group snapshot validating = none ↔
      (entry.schema.required = true → entry.override = none →
        ∃ value, entry.resolve group (some snapshot) validating = .ok (some value)) := by
  rw [lack?]
  cases hrequired : entry.schema.required with
  | false => simp
  | true =>
    cases hoverride : entry.override with
    | some value => simp
    | none =>
      rcases entry.resolve group (some snapshot) validating with e | (_ | value)
      · simp
      · simp
      · simp

end Entry

namespace Snapshot

/-- The complaint that a list of paths is not empty. -/
def pathComplaint (complaint : List String → ConfigError) (paths : List String) :
    List ConfigError :=
  if paths = [] then [] else [complaint paths]

theorem pathComplaint_filter_eq_nil_iff {complaint : List String → ConfigError}
    {paths : List String} {p : String → Bool} :
    pathComplaint complaint (paths.filter p) = [] ↔ ∀ path ∈ paths, p path = false := by
  have hempty : pathComplaint complaint (paths.filter p) = [] ↔ paths.filter p = [] := by
    rw [pathComplaint]
    split
    · next hnil => simp only [hnil]
    · next hsome => simp only [hsome, reduceCtorEq]
  rw [hempty, List.filter_eq_nil_iff]
  simp only [Bool.not_eq_true]

theorem checkAccess_eq (snapshot : Snapshot) :
    snapshot.checkAccess =
      verdict (pathComplaint .filesNotFound snapshot.missing ++
        pathComplaint .filesDenied snapshot.denied) := by
  rw [checkAccess, pathComplaint, pathComplaint]
  by_cases hmissing : snapshot.missing = []
  · by_cases hdenied : snapshot.denied = []
    · simp [hmissing, hdenied]
    · simp [hmissing, hdenied]
  · simp [hmissing]

end Snapshot

namespace Registry

/-- Everything that is wrong with a parse, in the order in which it is reported: failures file by
file, the missing files, the guarded files, defaults option by option if they are validated, and
required options without a value. -/
def complaints (r : Registry) (host : Host) (files : List String) (validating : Bool) :
    List ConfigError :=
  let paths := files.map host.fixPath
  paths.filterMap host.failure? ++
    Snapshot.pathComplaint .filesNotFound (paths.filter fun path => host.read path = .notFound) ++
    Snapshot.pathComplaint .filesDenied (paths.filter fun path => host.read path = .denied) ++
    (if validating then r.all.flatMap fun option => option.2.badDefaults else []) ++
    r.all.filterMap fun option =>
      option.2.lack? option.1 (Snapshot.ofReadings (host.readings files)) validating

/-- Nothing is wrong with a parse. -/
structure Accepts (r : Registry) (host : Host) (files : List String) (validating : Bool) :
    Prop where
  sound : ∀ file ∈ files, host.failure? (host.fixPath file) = none
  found : ∀ file ∈ files, host.read (host.fixPath file) ≠ .notFound
  allowed : ∀ file ∈ files, host.read (host.fixPath file) ≠ .denied
  defaults : validating = true → ∀ option ∈ r.all,
    ∀ value ∈ option.2.schema.default.toList ++ option.2.override.toList,
      ∃ converted, option.2.schema.convert value = .ok converted
  required : ∀ option ∈ r.all, option.2.schema.required = true → option.2.override = none →
    ∃ value, option.2.resolve option.1 (some (Snapshot.ofReadings (host.readings files)))
      validating = .ok (some value)

theorem complaints_eq_nil_iff {r : Registry} {host : Host} {files : List String}
    {validating : Bool} :
    r.complaints host files validating = [] ↔ r.Accepts host files validating := by
  have hdefaults : (if validating then r.all.flatMap fun option => option.2.badDefaults
      else []) = [] ↔ (validating = true → ∀ option ∈ r.all, option.2.badDefaults = []) := by
    cases validating with
    | true => simp
    | false => simp
  simp only [complaints, List.append_eq_nil_iff, List.filterMap_eq_nil_iff,
    Snapshot.pathComplaint_filter_eq_nil_iff, hdefaults, Entry.badDefaults_eq_nil_iff,
    Entry.lack?_eq_none_iff, List.forall_mem_map, decide_eq_false_iff_not]
  constructor
  · rintro ⟨⟨⟨⟨hsound, hfound⟩, hallowed⟩, hdefaults⟩, hrequired⟩
    exact ⟨hsound, hfound, hallowed, hdefaults, hrequired⟩
  · rintro ⟨hsound, hfound, hallowed, hdefaults, hrequired⟩
    exact ⟨⟨⟨⟨hsound, hfound⟩, hallowed⟩, hdefaults⟩, hrequired⟩

theorem checkDefaults_eq (options : List (Option String × Entry)) :
    checkDefaults options = verdict (options.flatMap fun option => option.2.badDefaults) := by
  induction options with
  | nil => rfl
  | cons option rest ih =>
    obtain ⟨group, entry⟩ := option
    have hfirst : verdict entry.badDefaults =
        discard ((entry.schema.default.toList ++ entry.override.toList).mapM
          entry.convertDefault) := by
      rw [← verdict_filterMap_complaint?, Entry.badDefaults]
      simp only [Entry.convertDefault_eq]
    rw [List.flatMap_cons, verdict_append, hfirst, checkDefaults, ih]
    cases (entry.schema.default.toList ++ entry.override.toList).mapM entry.convertDefault with
    | error e => rfl
    | ok values => rfl

theorem checkRequiredEntry_eq (snapshot : Snapshot) (validating : Bool) (group : Option String)
    (entry : Entry) :
    checkRequiredEntry snapshot validating group entry =
      verdict (entry.lack? group snapshot validating).toList := by
  rw [checkRequiredEntry, Entry.lack?]
  cases entry.schema.required with
  | false => rfl
  | true =>
    cases entry.override with
    | some value => rfl
    | none =>
      simp only [Bool.not_true, Option.isSome_none, Bool.or_self, Bool.false_eq_true, if_false,
        Option.isNone_none, and_self, if_true]
      rcases entry.resolve group (some snapshot) validating with e | (_ | value)
      · rfl
      · rfl
      · rfl

theorem checkRequired_eq (snapshot : Snapshot) (validating : Bool)
    (options : List (Option String × Entry)) :
    checkRequired snapshot validating options =
      verdict (options.filterMap fun option => option.2.lack? option.1 snapshot validating) := by
  induction options with
  | nil => rfl
  | cons option rest ih =>
    obtain ⟨group, entry⟩ := option
    rw [checkRequired, checkRequiredEntry_eq, ih, List.filterMap_cons]
    cases entry.lack? group snapshot validating with
    | none => rfl
    | some e => rfl

theorem check_eq (r : Registry) (snapshot : Snapshot) (validating : Bool) :
    r.check snapshot validating =
      verdict (Snapshot.pathComplaint .filesNotFound snapshot.missing ++
        Snapshot.pathComplaint .filesDenied snapshot.denied ++
        (if validating then r.all.flatMap fun option => option.2.badDefaults else []) ++
        r.all.filterMap fun option => option.2.lack? option.1 snapshot validating) := by
  rw [verdict_append, verdict_append, ← Snapshot.checkAccess_eq, ← checkRequired_eq, check]
  cases validating with
  | true =>
    simp only [if_true, ← checkDefaults_eq]
    cases snapshot.checkAccess with
    | error e => rfl
    | ok _ => rfl
  | false =>
    cases snapshot.checkAccess with
    | error e => rfl
    | ok _ => rfl

/-- A parse fails with the first complaint, if there is one. -/
theorem parse_eq_verdict (r : Registry) (host : Host) (files : List String)
    (validating : Bool) :
    (r.parse host files validating).1 = verdict (r.complaints host files validating) := by
  rw [parse, Snapshot.load_eq, complaints]
  cases hfailures : (files.map host.fixPath).filterMap host.failure? with
  | cons e rest => simp
  | nil =>
    simp only [List.head?_nil, List.nil_append]
    rw [← Snapshot.missing_ofReadings, ← Snapshot.denied_ofReadings, ← check_eq]
    cases r.check (Snapshot.ofReadings (host.readings files)) validating with
    | error e => rfl
    | ok _ => rfl

end Registry

namespace Sample

/-- A required option without a default, and one whose default does not convert. -/
def demanding : List Step :=
  [registering { Schema.ofName "token" .text with required := true } (some "api"),
    registering { port with default := some (.string "http") } none]

/-- A file with a value for the required option, one that stops in its header, and a guarded one. -/
def patchyHost : Host :=
  (((({} : FileTree).add "/site.conf" (.file "[API]\ntoken = x\n".toUTF8)).add
    "/broken.conf" (.file "[API\n".toUTF8)).add "/guarded.conf" .guarded).host "/" "/"

end Sample

namespace Config

/-- In every configuration that a run leads to, a parse succeeds exactly if nothing is wrong with
it and otherwise fails with the first complaint. The options that complaints are about come in
order, those outside all groups first, and are all that are registered. -/
theorem parse_verdict (history : List Step) (host : Host) (files : List String)
    (validating : Bool) :
    ((after history).parse host files validating).1 =
        verdict ((after history).registry.complaints host files validating) ∧
      (((after history).parse host files validating).1 = .ok () ↔
        (after history).registry.Accepts host files validating) ∧
      (after history).registry.all.Pairwise Registry.Precedes ∧
      ∀ group entry, (group, entry) ∈ (after history).registry.all ↔
        (after history).registry.entry? entry.schema.dest group = .ok entry := by
  have hverdict : ((after history).parse host files validating).1 =
      verdict ((after history).registry.complaints host files validating) := by
    rw [(matches_parse (coherent_after history) host files validating).answer]
    exact Registry.parse_eq_verdict _ host files validating
  refine ⟨hverdict, ?_, (keyed_after history).pairwise_all, ?_⟩
  · rw [hverdict, verdict_eq_ok_iff]
    exact Registry.complaints_eq_nil_iff
  · intro group entry
    rw [(keyed_after history).mem_all_iff, Registry.entry?_eq_ok_iff]

open Sample in
/-- One problem of every sort, the broken file first; and none where a file alone gives the required
option its value. -/
example :
    (after demanding).registry.complaints patchyHost
        ["/none.conf", "/broken.conf", "/guarded.conf"] true =
      [.parse "/broken.conf" ⟨1, "[API", .unclosedHeader⟩, .filesNotFound ["/none.conf"],
        .filesDenied ["/guarded.conf"], .invalidDefault "port" (.invalid "integer" "http"),
        .requiredMissing "token" (some "api")] ∧
      ((after demanding).parse patchyHost
        ["/none.conf", "/broken.conf", "/guarded.conf"] true).1 =
        .error (.parse "/broken.conf" ⟨1, "[API", .unclosedHeader⟩) ∧
      (after demanding).registry.complaints patchyHost ["/site.conf"] false = [] ∧
      ((after demanding).parse patchyHost ["/site.conf"] false).1 = .ok () :=
  ⟨by rfl, by rfl, by rfl, by rfl⟩

end Config

end LayeredConfig
