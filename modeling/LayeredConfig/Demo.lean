import LayeredConfig.Config
import LayeredConfig.Discovery
import LayeredConfig.Host.ArgumentParser

/-!
# A sample service

A program that registers a few options, reads its configuration files, and
prints what it made of them. `show` prints the options of the service and
`config` the commands on any configuration. Without files on the command line,
the files of the project are looked for in the usual places.
-/

namespace LayeredConfig.Demo

def project : String := "confopts-demo"

/-- What a run of the program leaves: its exit code and the two texts it printed. -/
structure Outcome where
  code : UInt8
  stdout : String := ""
  stderr : String := ""

/-- What the program is asked to do. -/
inductive Request where
  | show (files : List String)
  | config (arguments : Arguments)

/-- The files that are given. -/
def Request.files : Request → List String
  | .show files => files
  | .config arguments => arguments.files

/-- An option with a default. -/
def optional (name : String) (kind : Kind) (default : Value) : Schema :=
  { Schema.ofName name kind with default := some default }

/-- The options of the program. -/
def registry : Except ConfigError Registry := do
  let (answer, r) := ({} : Registry).registerMany none
    [{ optional "debug" .boolean (.boolean false) with help := some "Enable debug output" },
      { Schema.ofName "admin-token" .text with
        secret := true, help := some "Token for admin calls" }]
  answer
  let (answer, r) := r.registerManyIn
    ⟨"education", "Education options", some "Options of the education service"⟩
    [{ optional "school" .text (.string "bupt") with required := true },
      optional "classes" .text (.string "grade 3"),
      optional "number-of-students" (.integer (some 1) (some 500)) (.integer 50)]
  answer
  let (answer, r) := r.registerMany (some "api")
    [optional "ip" (.address (some .v4)) (.string "127.0.0.1"),
      optional "port" (.integer (some 1) (some 65535)) (.integer 8080)]
  answer
  return r

/-- The files to read: those given, or else those found. -/
def files (host : Host) (given : List String) : List String :=
  if given = [] then discover host project (Location.defaults project) else given

/-- The record in which the service reads its group. -/
def education : List (String × Shape) :=
  [("school", .string), ("classes", .string), ("number_of_students", .unsigned 32)]

/-- Print the options of the service; what was printed before a failure stays. -/
def display : StateM Config (String × Except ConfigError Unit) := do
  match ← Config.readRecord education "education" with
  | .error e => return ("", .error e)
  | .ok values =>
    let labels := ["school:             ", "classes:            ", "number of students: "]
    let printed := String.join
      ((labels.zip values).map fun (label, value) => label ++ value.listed ++ "\n")
    match ← Config.readAs .string "ip" (some "api") with
    | .error e => return (printed, .error e)
    | .ok ip =>
      match ← Config.readAs (.unsigned 16) "port" (some "api") with
      | .error e => return (printed, .error e)
      | .ok port =>
        let address := (ip.map Value.listed).getD "" ++ ":" ++ (port.map Value.listed).getD "0"
        return (printed ++ "api:                " ++ address ++ "\n", .ok ())

/-- What is printed, and whether it worked. -/
def perform (host : Host) (request : Request) : String × Except ConfigError Unit :=
  match registry with
  | .error e => ("", .error e)
  | .ok registry =>
    let (parsed, config) := ({ registry } : Config).parse host (files host request.files) false
    match parsed, request with
    | .error e, _ => ("", .error e)
    | .ok _, .config arguments =>
      match (Config.handle arguments.action config).1 with
      | .error e => ("", .error e)
      | .ok report => (report.text ++ "\n", .ok ())
    | .ok _, .show _ => (display config).1

/-- A run of the program on a host, with a parser for its arguments. -/
def runWith (parse : ArgumentParser Request) (host : Host) (arguments : List String) : Outcome :=
  match parse arguments with
  | .error .help => { code := 0 }
  | .error _ => { code := 2 }
  | .ok request =>
    match perform host request with
    | (printed, .ok _) => { code := 0, stdout := printed }
    | (printed, .error e) =>
      { code := 1, stdout := printed, stderr := "Error: " ++ e.message ++ "\n" }

def command : Command :=
  .mk false false true [("show", .mk true false false []), ("config", .config)]

def parse : ArgumentParser Request := fun arguments =>
  (command.scan {} arguments).map fun invocation =>
    match invocation.path with
    | "config" :: path => .config (Invocation.arguments path invocation.files invocation.key)
    | _ => .show invocation.files

/-- A run of the program on a host. -/
def run (host : Host) (arguments : List String) : Outcome :=
  runWith parse host arguments

/-- Every path that a run may read. -/
def candidates (host : Host) (arguments : List String) : List String :=
  (Location.defaults project).filterMap (Location.candidate? host project) ++
    match parse arguments with
    | .ok request => request.files.map host.fixPath
    | .error _ => []

end LayeredConfig.Demo
