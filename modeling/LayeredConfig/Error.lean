import LayeredConfig.Kind
import LayeredConfig.Source.Reader

/-!
# Errors

Everything that can go wrong between registering an option and reading its
value, by cause. The wording is in `message` alone.
-/

namespace LayeredConfig

/-- Why a file that is there cannot be read, other than for lack of permission. -/
inductive ReadFailure where
  | isDirectory
  | notDirectory
  | nameTooLong
  | notText
  | nulInPath
deriving DecidableEq, Repr

def ReadFailure.message : ReadFailure → String
  | isDirectory => "Is a directory (os error 21)"
  | notDirectory => "Not a directory (os error 20)"
  | nameTooLong => "File name too long (os error 36)"
  | notText => "stream did not contain valid UTF-8"
  | nulInPath => "file name contained an unexpected NUL byte"

inductive ConfigError where
  | noSuchOption (dest : String) (group : Option String)
  | noSuchGroup (name : String)
  /-- Another option is registered under the same dest. -/
  | duplicateOption (name : String)
  | illegalName (name : String)
  | requiredMissing (name : String) (group : Option String)
  | filesNotFound (paths : List String)
  | filesDenied (paths : List String)
  | parse (path : String) (fault : Fault)
  /-- A value from a file does not convert. -/
  | invalidValue (name : String) (cause : ValueError)
  /-- A default, or what replaced it, does not convert. -/
  | invalidDefault (name : String) (cause : ValueError)
  | unreadable (path : String) (cause : ReadFailure)
  /-- A value, or a group, does not have the shape asked for. -/
  | shapeMismatch (name : String)
deriving DecidableEq

namespace ConfigError

def message : ConfigError → String
  | noSuchOption dest none => "no such option: " ++ dest
  | noSuchOption dest (some group) => "no such option in group " ++ group ++ ": " ++ dest
  | noSuchGroup name => "no such group: " ++ name
  | duplicateOption name => "duplicate option: " ++ name
  | illegalName name => "illegal name " ++ name ++ " with prefix _"
  | requiredMissing name none => "value required for option: " ++ name
  | requiredMissing name (some group) => "value required for option: " ++ group ++ "." ++ name
  | filesNotFound paths => "Failed to find some config files: " ++ ",".intercalate paths
  | filesDenied paths => "Failed to open some config files: " ++ ",".intercalate paths
  | parse path fault =>
    "at " ++ path ++ ":" ++ String.ofList (Nat.toDigits 10 fault.line) ++ ", " ++
      fault.reason.message ++ ": " ++ Text.quoted fault.text
  | invalidValue name cause => "Value for option " ++ name ++ " is not valid: " ++ cause.message
  | invalidDefault name cause =>
    "Default value for option " ++ name ++ " is not valid: " ++ cause.message
  | unreadable path cause => "Failed to read " ++ path ++ ": " ++ cause.message
  | shapeMismatch name => "Cannot read option " ++ name ++ " as the requested type"

end ConfigError

end LayeredConfig
