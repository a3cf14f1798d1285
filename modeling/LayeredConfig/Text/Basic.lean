/-!
# Characters, lines and pieces

Text is read as a list of characters, so that every scan below is a recursion
on the text itself. A blank is a character with the Unicode property
`White_Space`; it is the only notion of white space in this library, for
trimming lines, values, keys and list items alike.

`lines` and `cut` take a text apart without losing anything: `cut` gives the
pieces between the occurrences of a separator, of which there is always at
least one, and `lines` gives the lines that a newline ends, plus an unfinished
last one.
-/

namespace LayeredConfig.Text

/-- The characters with the property `White_Space`. -/
def isBlank (c : Char) : Bool :=
  let n := c.toNat
  (0x09 ≤ n && n ≤ 0x0d) || n = 0x20 || n = 0x85 || n = 0xa0 || n = 0x1680 ||
    (0x2000 ≤ n && n ≤ 0x200a) || n = 0x2028 || n = 0x2029 || n = 0x202f || n = 0x205f ||
    n = 0x3000

def trimStart (text : List Char) : List Char :=
  text.dropWhile isBlank

def trimEnd (text : List Char) : List Char :=
  (text.reverse.dropWhile isBlank).reverse

/-- Without the blanks at either end. -/
def trim (text : List Char) : List Char :=
  trimStart (trimEnd text)

/-- The text of a string without the blanks at either end. -/
def trimmed (text : String) : List Char :=
  trim text.toList

/-- The lines of a text. A newline ends a line, so a final one opens no further line. -/
def lines : List Char → List (List Char)
  | [] => []
  | c :: rest =>
    if c = '\n' then [] :: lines rest
    else match lines rest with
      | [] => [[c]]
      | line :: more => (c :: line) :: more

/-- The pieces of a text between the occurrences of a separator. -/
def cut (separator : Char) : List Char → List (List Char)
  | [] => [[]]
  | c :: rest =>
    if c = separator then [] :: cut separator rest
    else match cut separator rest with
      | [] => [[c]]
      | piece :: more => (c :: piece) :: more

/-- The words of a text: its longest parts without blanks. -/
def words : List Char → List (List Char)
  | [] => []
  | c :: rest =>
    if isBlank c then words rest
    else match rest with
      | [] => [[c]]
      | d :: _ =>
        if isBlank d then [c] :: words rest
        else match words rest with
          | [] => [[c]]
          | word :: more => (c :: word) :: more

/-- What stands before and after the first character of a class. -/
def cutFirst (isSeparator : Char → Bool) : List Char → Option (List Char × List Char)
  | [] => none
  | c :: rest =>
    if isSeparator c then some ([], rest)
    else (cutFirst isSeparator rest).map fun halves => (c :: halves.1, halves.2)

theorem cut_ne_nil (separator : Char) (text : List Char) : cut separator text ≠ [] := by
  cases text with
  | nil => simp [cut]
  | cons c rest =>
    rw [cut]
    split
    · simp
    · split <;> simp

/-- Joining the pieces with the separator gives the text back. -/
theorem intercalate_cut (separator : Char) (text : List Char) :
    [separator].intercalate (cut separator text) = text := by
  induction text with
  | nil => simp [cut, List.intercalate]
  | cons c rest ih =>
    rw [cut]
    split
    · next h =>
      subst h
      cases hr : cut c rest with
      | nil => exact absurd hr (cut_ne_nil c rest)
      | cons piece more =>
        rw [hr] at ih
        simpa [List.intercalate, List.intersperse] using ih
    · cases hr : cut separator rest with
      | nil => exact absurd hr (cut_ne_nil separator rest)
      | cons piece more =>
        rw [hr] at ih
        cases more with
        | nil => simpa [List.intercalate, List.intersperse] using ih
        | cons next more => simpa [List.intercalate, List.intersperse] using ih

theorem cutFirst_eq_some {isSeparator : Char → Bool} {text before after : List Char}
    (h : cutFirst isSeparator text = some (before, after)) :
    ∃ c, isSeparator c ∧ text = before ++ c :: after ∧ ∀ d ∈ before, ¬ isSeparator d := by
  induction text generalizing before with
  | nil => simp [cutFirst] at h
  | cons c rest ih =>
    rw [cutFirst] at h
    split at h
    · next hc => cases h; exact ⟨c, hc, rfl, by simp⟩
    · next hc =>
      obtain ⟨⟨b, a⟩, hba, he⟩ := Option.map_eq_some_iff.1 h
      cases he
      obtain ⟨d, hd, rfl, hb⟩ := ih hba
      exact ⟨d, hd, rfl, by simpa [hc] using hb⟩

theorem cutFirst_append {isSeparator : Char → Bool} {before : List Char}
    (h : ∀ d ∈ before, ¬ isSeparator d) {c : Char} (hc : isSeparator c) (after : List Char) :
    cutFirst isSeparator (before ++ c :: after) = some (before, after) := by
  induction before with
  | nil => simp [cutFirst, hc]
  | cons d rest ih =>
    obtain ⟨hd, hrest⟩ := List.forall_mem_cons.1 h
    rw [List.cons_append, cutFirst, if_neg hd, ih hrest]
    rfl

theorem cutFirst_eq_none_iff {isSeparator : Char → Bool} {text : List Char} :
    cutFirst isSeparator text = none ↔ ∀ c ∈ text, ¬ isSeparator c := by
  induction text with
  | nil => simp [cutFirst]
  | cons c rest ih =>
    rw [cutFirst]
    split
    · next hc => simp [hc]
    · next hc => simp [hc, ih]

end LayeredConfig.Text
