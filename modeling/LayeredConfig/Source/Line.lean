import LayeredConfig.Text.Basic

/-!
# The lines of a configuration file

A line is blank, a comment, or has a body, which is what stands between the
blanks at its ends; all that the indentation says is whether there is any. On
its own a body states one of two things: a header in brackets opens a section,
and anything else assigns a value to a key. Why a body states neither is its
`Reason`.
-/

namespace LayeredConfig

/-- Why a line is refused. -/
inductive Reason where
  /-- An indented line continues no value. -/
  | strayContinuation
  | unclosedHeader
  | emptyHeader
  | noSeparator
  | emptyKey
  /-- An assignment stands before the first header. -/
  | noSection
deriving DecidableEq, Repr

def Reason.message : Reason → String
  | strayContinuation => "Unexpected continuation line"
  | unclosedHeader => "Invalid section (must end with ])"
  | emptyHeader => "Empty section name"
  | noSeparator => "No ':' or '=' found in assignment"
  | emptyKey => "Key cannot be empty"
  | noSection => "Section must be started before assignment"

/-- A line by itself. -/
inductive Line where
  | blank
  | comment
  | body (indented : Bool) (text : List Char)
deriving DecidableEq

namespace Line

def isCommentMark (c : Char) : Bool :=
  c = '#' || c = ';'

def ofText (raw : List Char) : Line :=
  let line := Text.trimEnd raw
  let text := Text.trimStart line
  match text with
  | [] => blank
  | c :: _ => if isCommentMark c then comment else body (text.length ≠ line.length) text

end Line

/-- What the body of a line states. -/
inductive Statement where
  | header (name : String)
  | assignment (key : String) (value : List Char)
deriving DecidableEq

namespace Statement

/-- A key ends at the first of these. -/
def isSeparator (c : Char) : Bool :=
  c = '=' || c = ':'

/-- Whether an indented body assigns. Its key holds no blank, so prose with a colon in it
continues a value. -/
def isAssignment (text : List Char) : Bool :=
  match Text.cutFirst isSeparator text with
  | some (before, _) =>
    let key := Text.trim before
    key ≠ [] && !key.any Text.isBlank
  | none => false

/-- Without one pair of equal quotes around it. -/
def unquote : List Char → List Char
  | [] => []
  | quote :: rest =>
    if (quote = '"' || quote = '\'') && rest.getLast? = some quote then rest.dropLast
    else quote :: rest

/-- The header whose body goes on like this after its opening bracket. -/
def header? (rest : List Char) : Except Reason Statement :=
  if rest.getLast? = some ']' then
    let name := Text.trim rest.dropLast
    if name = [] then .error .emptyHeader else .ok (header (String.ofList name))
  else .error .unclosedHeader

def assignment? (text : List Char) : Except Reason Statement :=
  match Text.cutFirst isSeparator text with
  | none => .error .noSeparator
  | some (before, after) =>
    let key := Text.trim before
    if key = [] then .error .emptyKey
    else .ok (assignment (String.ofList key) (unquote (Text.trim after)))

/-- What a body states on its own. -/
def ofBody (text : List Char) : Except Reason Statement :=
  match text with
  | '[' :: rest => header? rest
  | _ => assignment? text

end Statement

end LayeredConfig
