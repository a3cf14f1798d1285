import LayeredConfig.Demo
import LayeredConfig.Host.Linux

/-!
# The sample service as a program

Reads every path that the run may need, then runs on what was read.
-/

namespace LayeredConfig.Main

/-- How reading a file of the machine turns out. -/
def readFile (path : String) : IO ReadOutcome := do
  try
    let bytes ← IO.FS.readBinFile path
    match String.fromUTF8? bytes with
    | some text => return .content text
    | none => return .failed .notText
  catch
    | .noFileOrDirectory _ _ _ => return .notFound
    | .permissionDenied _ _ _ => return .denied
    | .inappropriateType _ 20 _ => return .failed .notDirectory
    | .inappropriateType _ _ _ => return .failed .isDirectory
    | _ => return .failed .nameTooLong

/-- A variable of the environment that is set to something. -/
def environment? (name : String) : IO (Option String) :=
  return (← IO.getEnv name).filter fun text => text ≠ ""

/-- The host that has just these files. -/
def hostOf (cwd home configHome : Option String) (files : List (String × ReadOutcome)) : Host where
  cwd := cwd
  home := home
  platform project := home.map fun home => Linux.platform configHome home project
  read path := (files.lookup path).getD .notFound
  isFile path :=
    match files.lookup path with
    | some (.content _) | some .denied => true
    | _ => false

end LayeredConfig.Main

open LayeredConfig in
def main (arguments : List String) : IO UInt32 := do
  let cwd ← try some <$> toString <$> IO.currentDir catch _ => pure none
  let home ← Main.environment? "HOME"
  let configHome := (← Main.environment? "XDG_CONFIG_HOME").filter fun path => path.startsWith "/"
  let hostOf := Main.hostOf cwd home configHome
  let paths := Demo.candidates (hostOf []) arguments
  let files ← paths.mapM fun path => return (path, ← Main.readFile path)
  let outcome := Demo.run (hostOf files) arguments
  (← IO.getStdout).putStr outcome.stdout
  (← IO.getStderr).putStr outcome.stderr
  return outcome.code.toUInt32
