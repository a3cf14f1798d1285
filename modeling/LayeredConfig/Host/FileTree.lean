import LayeredConfig.Host
import LayeredConfig.Host.Linux
import LayeredConfig.Table

/-!
# File trees

A host whose files are a value. A tree binds absolute paths to nodes; a path is
resolved component by component from the root, so that every part but the last
must be a directory, `..` leads to the parent, and a slash at the end asks for a
directory.
-/

namespace LayeredConfig

inductive Node where
  | directory
  | file (bytes : ByteArray)
  /-- A file that may not be read. -/
  | guarded

/-- Nodes by their paths. The root is a directory even if it is not listed. -/
structure FileTree where
  nodes : Table Node := Table.empty

namespace FileTree

/-- The path of the node with these names above it, the innermost first. -/
def pathOf (names : List String) : String :=
  "/" ++ "/".intercalate names.reverse

def node? (tree : FileTree) (names : List String) : Option Node :=
  if names = [] then some .directory else tree.nodes.get? (pathOf names)

/-- Put a node at a path, with directories above it. -/
def add (tree : FileTree) (path : String) (node : Node) : FileTree :=
  let names := (Path.components path.toList).map String.ofList
  let parents := (List.range names.length).tail.map fun n => pathOf (names.take n).reverse
  let above := parents.foldl (fun nodes p =>
    if nodes.contains p then nodes else nodes.insert p .directory) tree.nodes
  ⟨above.insert (pathOf names.reverse) node⟩

/-- Take a node away. -/
def remove (tree : FileTree) (path : String) : FileTree :=
  ⟨tree.nodes.erase (pathOf ((Path.components path.toList).map String.ofList).reverse)⟩

/-- A name of more bytes is refused. -/
def nameLimit : Nat := 255

/-- A path of this many bytes is refused. -/
def pathLimit : Nat := 4096

/-- Follow components from a node; `none` means that nothing is there. -/
def walk (tree : FileTree) (names : List String) :
    List String → Except ReadFailure (Option (List String))
  | [] => .ok (some names)
  | c :: rest =>
    match tree.node? names with
    | some .directory =>
      if c = ".." then tree.walk names.tail rest
      else if nameLimit < c.utf8ByteSize then .error .nameTooLong
      else if (tree.node? (c :: names)).isSome then tree.walk (c :: names) rest
      else .ok none
    | _ => .error .notDirectory

/-- The node that a path leads to. -/
def resolve (tree : FileTree) (path : String) : Except ReadFailure (Option Node) :=
  if path.toList.contains '\x00' then .error .nulInPath
  else if path = "" then .ok none
  else if pathLimit ≤ path.utf8ByteSize then .error .nameTooLong
  else
    match tree.walk [] ((Path.components path.toList).map String.ofList) with
    | .error cause => .error cause
    | .ok none => .ok none
    | .ok (some names) =>
      match tree.node? names with
      | some .directory => .ok (some .directory)
      | node => if path.toList.getLast? = some '/' then .error .notDirectory else .ok node

def read (tree : FileTree) (path : String) : ReadOutcome :=
  match tree.resolve path with
  | .error cause => .failed cause
  | .ok none => .notFound
  | .ok (some .guarded) => .denied
  | .ok (some .directory) => .failed .isDirectory
  | .ok (some (.file bytes)) =>
    match String.fromUTF8? bytes with
    | some text => .content text
    | none => .failed .notText

def isFile (tree : FileTree) (path : String) : Bool :=
  match tree.resolve path with
  | .ok (some (.file _)) | .ok (some .guarded) => true
  | _ => false

/-- The host with these files. -/
def host (tree : FileTree) (cwd home : String) : Host where
  cwd := some cwd
  home := some home
  platform := fun project => some (Linux.platform none home project)
  read := tree.read
  isFile := tree.isFile

end FileTree

end LayeredConfig
