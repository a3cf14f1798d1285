import LayeredConfig.Source.Line

/-!
# Reading a configuration file

A reader takes the lines of a file one at a time. It stands before the first
header, inside a section, or at a value that may still be continued, and it
keeps the items that are complete: the headers and the assignments, in the order
of the file.

A value is complete at a blank line, at the next statement, or at the end.
Comments change nothing, not even inside a value. While a value is read, an
indented line continues it unless it assigns, so such a line never leaves the
section.
-/

namespace LayeredConfig

/-- One complete statement of a file, under the header that it belongs to. -/
inductive Item where
  | header (name : String)
  | assignment (name key value : String)
deriving DecidableEq

/-- Where a reader stands. -/
inductive Place where
  | outside
  | inside (name : String)
  /-- At a value that may be continued, with its lines so far. -/
  | reading (name key : String) (lines : List (List Char))
deriving DecidableEq

/-- The section at a place. -/
def Place.name? : Place → Option String
  | outside => none
  | inside name => some name
  | reading name _ _ => some name

/-- Why and where a file is refused. -/
structure Fault where
  line : Nat
  /-- The line without the blanks at its end. -/
  text : String
  reason : Reason
deriving DecidableEq

structure Reader where
  items : List Item := []
  place : Place := .outside
deriving DecidableEq

namespace Reader

/-- Complete the value that is being read, if any. -/
def settle (reader : Reader) : Reader :=
  match reader.place with
  | .reading name key lines =>
    { items := reader.items ++
        [.assignment name key (String.ofList (['\n'].intercalate lines))]
      place := .inside name }
  | _ => reader

/-- Take a statement, no value being read. -/
def begin (reader : Reader) (text : List Char) : Except Reason Reader :=
  match Statement.ofBody text with
  | .error reason => .error reason
  | .ok (.header name) =>
    .ok { items := reader.items ++ [.header name], place := .inside name }
  | .ok (.assignment key value) =>
    match reader.place.name? with
    | none => .error .noSection
    | some name => .ok { reader with place := .reading name key [value] }

/-- Take an indented body that does not assign. -/
def continueWith (reader : Reader) (text : List Char) : Except Reason Reader :=
  match reader.place with
  | .reading name key lines => .ok { reader with place := .reading name key (lines ++ [text]) }
  | _ => if text.head? = some '[' then reader.begin text else .error .strayContinuation

/-- Take one line. -/
def step (reader : Reader) : Line → Except Reason Reader
  | .blank => .ok reader.settle
  | .comment => .ok reader
  | .body indented text =>
    if indented && !Statement.isAssignment text then reader.continueWith text
    else reader.settle.begin text

/-- Take lines, of which the first has the given number. -/
def run (reader : Reader) (number : Nat) : List (List Char) → Except Fault Reader
  | [] => .ok reader
  | raw :: rest =>
    match reader.step (Line.ofText raw) with
    | .error reason => .error ⟨number, String.ofList (Text.trimEnd raw), reason⟩
    | .ok next => next.run (number + 1) rest

end Reader

/-- The items of a file. -/
def readItems (content : String) : Except Fault (List Item) :=
  (fun reader => reader.settle.items) <$> ({} : Reader).run 1 (Text.lines content.toList)

end LayeredConfig
