import LayeredConfig.Text.Basic

/-!
# Paths

Paths as text. A path that starts with the component `~` stands below the home
directory; a path that does not start with a slash stands below the current
directory. Where such a directory is not known the path stays as it is. An
absolute path keeps its `..` components, since they may lead through links, and a
slash at its end, since it asks for a directory; repeated slashes and `.`
components go. Two slashes at the start, and no more, are kept as they are; a path
that starts so is still the same path as with one.
-/

namespace LayeredConfig.Path

/-- The components of a path, without the empty ones and without `.`. -/
def components (path : List Char) : List (List Char) :=
  (Text.cut '/' path).filter fun c => c ≠ [] && c ≠ ['.']

/-- One path below another. An absolute path stands by itself. -/
def join (base path : List Char) : List Char :=
  if path.head? = some '/' || base = [] then path
  else if base.getLast? = some '/' then base ++ path
  else base ++ '/' :: path

/-- Where a path starts: at the root, in one of its two spellings, or at the current
directory. No path starts nowhere. -/
def start (cwd : Option (List Char)) (path : List Char) : Option (List Char) :=
  match path with
  | [] => none
  | '/' :: '/' :: '/' :: _ => some ['/']
  | '/' :: '/' :: _ => some ['/', '/']
  | '/' :: _ => some ['/']
  | _ => cwd

/-- The path from the root, free of `.` and of repeated slashes. -/
def absolute (cwd : Option (List Char)) (path : List Char) : Option (List Char) :=
  (start cwd path).map fun base =>
    let plain := (components path).foldl join base
    if path.getLast? = some '/' then join plain [] else plain

/-- With a leading `~` replaced by the home directory. -/
def expandHome (home : Option (List Char)) (path : List Char) : List Char :=
  match home, Text.cut '/' path with
  | some home, ['~'] :: rest =>
    join home (['/'].intercalate (rest.filter fun c => c ≠ [] && c ≠ ['.']))
  | _, _ => path

/-- A path as it is used: expanded, and absolute if it can be. -/
def fix (home cwd : Option String) (path : String) : String :=
  let expanded := expandHome (home.map String.toList) path.toList
  String.ofList ((absolute (cwd.map String.toList) expanded).getD expanded)

/-- What paths are compared by: whether they start at the root, or with a `.` that is said, and
their components. -/
def parts (path : List Char) : List (List Char) :=
  match Text.cut '/' path with
  | [] :: _ :: _ => ['/'] :: components path
  | ['.'] :: _ => ['.'] :: components path
  | _ => components path

/-- Whether two paths are the same, however they are spelled. -/
def same (path other : String) : Bool :=
  parts path.toList = parts other.toList

/-- One path below another, as strings. -/
def append (base path : String) : String :=
  String.ofList (join base.toList path.toList)

end LayeredConfig.Path
