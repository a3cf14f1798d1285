import LayeredConfig.Proofs.WellFormed

/-!
# Writing sections and reading them back

Sections are written one after the other: a header in brackets, then every value
of every key as an assignment of its own, with the first line of the value in
quotes and every further line indented. The reader takes each of these lines for
what it was written as. Quotes keep the blanks at the ends of a first line, and
a line that continues a value is never mistaken for an assignment or a comment.

Reading is shown for any list of items in which every assignment stands under
the header before it (`Reader.takes_items`); the items of a table of sections
are one such list, and gathering them gives the table back.
-/

namespace LayeredConfig

/-- The blanks that a line which continues a value begins with. -/
structure Indent where
  text : List Char
  ne_nil : text ≠ []
  blank : ∀ c ∈ text, Text.isBlank c = true
  newline : '\n' ∉ text

/-- One space. -/
def Indent.space : Indent :=
  ⟨[' '], List.cons_ne_nil _ _, List.forall_mem_singleton.2 rfl, by decide⟩

/-- A name in brackets. -/
def headerLine (name : List Char) : List Char :=
  '[' :: (name ++ [']'])

/-- A key with the first line of its value in quotes. -/
def assignmentLine (key first : List Char) : List Char :=
  (key ++ [' ']) ++ '=' :: ' ' :: '"' :: (first ++ ['"'])

namespace Item

/-- The lines that state an item. -/
def lines (indent : Indent) : Item → List (List Char)
  | header name => [headerLine name.toList]
  | assignment _ key value =>
    let pieces := Text.cut '\n' value.toList
    assignmentLine key.toList (pieces.headD []) :: pieces.tail.map fun line => indent.text ++ line

/-- Every assignment stands under the header before it, the first of them under one that is opened
already, if any. -/
def Placed : Option String → List Item → Prop
  | _, [] => True
  | _, header name :: rest => Placed (some name) rest
  | opened, assignment name _ _ :: rest => opened = some name ∧ Placed opened rest

end Item

namespace Sections

/-- The items of one section. -/
def itemsOf (name : String) (members : Table (List String)) : List Item :=
  .header name :: members.toList.flatMap fun binding => binding.2.map (.assignment name binding.1)

/-- The items of all sections. -/
def items (sections : Sections) : List Item :=
  sections.toList.flatMap fun binding => itemsOf binding.1 binding.2

/-- The text of all sections. -/
def written (indent : Indent) (sections : Sections) : String :=
  String.ofList
    ((sections.items.flatMap (Item.lines indent)).flatMap fun line => line ++ ['\n'])

end Sections

section Lines

variable {text name key first : List Char}

theorem Line.ofText_blank_append (hname : IsName text)
    (hhead : ∀ c, text.head? = some c → c ≠ '#' ∧ c ≠ ';') {blanks : List Char}
    (hblanks : ∀ c ∈ blanks, Text.isBlank c = true) :
    Line.ofText (blanks ++ text) = .body (blanks ≠ []) text := by
  have hstart : Text.trimStart text = text :=
    Text.trimStart_eq_self_iff.2 (Text.trim_eq_self_iff.1 hname.trimmed).1
  simp only [Line.ofText, Text.trimEnd_append_self hname.ne_nil hname.trimmed,
    Text.trimStart_blank_append hblanks, hstart]
  cases text with
  | nil => exact absurd rfl hname.ne_nil
  | cons c rest =>
    have hmark : Line.isCommentMark c = false := by
      simpa [Line.isCommentMark] using hhead c rfl
    simp [hmark]

theorem isName_headerLine (hname : IsName name) : IsName (headerLine name) := by
  refine ⟨List.cons_ne_nil _ _, Text.trim_eq_self_iff.2 ⟨?_, ?_⟩, ?_⟩
  · intro c hc
    cases hc
    decide
  · intro c hc
    rw [headerLine, ← List.cons_append, List.getLast?_concat] at hc
    cases hc
    decide
  · simpa [headerLine] using hname.newline

theorem ofBody_headerLine (hname : IsName name) :
    Statement.ofBody (headerLine name) = .ok (.header (String.ofList name)) := by
  refine Statement.header?_eq_ok_iff.2 ⟨name, rfl, ?_, ?_⟩
  · rw [hname.trimmed]
    exact hname.ne_nil
  · rw [hname.trimmed]

theorem IsKey.exists_cons (hkey : IsKey key) :
    ∃ c rest, key = c :: rest ∧ Text.isBlank c = false ∧ c ≠ '[' ∧ c ≠ '#' ∧ c ≠ ';' := by
  cases key with
  | nil => exact absurd rfl hkey.ne_nil
  | cons c rest =>
    exact ⟨c, rest, rfl, (Text.trim_eq_self_iff.1 hkey.trimmed).1 c rfl, hkey.head c rfl⟩

theorem head_assignmentLine (hkey : IsKey key) {c : Char}
    (hc : (assignmentLine key first).head? = some c) :
    Text.isBlank c = false ∧ c ≠ '[' ∧ c ≠ '#' ∧ c ≠ ';' := by
  obtain ⟨d, rest, rfl, hd⟩ := hkey.exists_cons
  cases hc
  exact hd

theorem isName_assignmentLine (hkey : IsKey key) (hfirst : '\n' ∉ first) :
    IsName (assignmentLine key first) := by
  refine ⟨by simp [assignmentLine], Text.trim_eq_self_iff.2 ⟨?_, ?_⟩, ?_⟩
  · intro c hc
    exact (head_assignmentLine hkey hc).1
  · intro c hc
    have hsplit : assignmentLine key first =
        (key ++ [' ', '=', ' ', '"'] ++ first) ++ ['"'] := by
      simp [assignmentLine]
    rw [hsplit, List.getLast?_concat] at hc
    cases hc
    decide
  · simp [assignmentLine, hkey.newline, hfirst]

/-- Quotes around a first line come off again, whatever it holds. -/
theorem ofBody_assignmentLine (hkey : IsKey key) (first : List Char) :
    Statement.ofBody (assignmentLine key first) =
      .ok (.assignment (String.ofList key) first) := by
  have hhead : (assignmentLine key first).head? ≠ some '[' :=
    fun hbracket => (head_assignmentLine hkey hbracket).2.1 rfl
  have hseparator : ∀ c ∈ key ++ [' '], ¬Statement.isSeparator c = true := by
    rw [Statement.forall_not_isSeparator_iff]
    simp [hkey.equals, hkey.colon]
  have hbefore : Text.trim (key ++ [' ']) = key :=
    Text.trim_pad hkey.ne_nil hkey.trimmed (List.forall_mem_nil _) Indent.space.blank
  have hquoted : Text.trim ('"' :: (first ++ ['"'])) = '"' :: (first ++ ['"']) := by
    refine Text.trim_eq_self_iff.2 ⟨?_, ?_⟩
    · intro c hc
      cases hc
      decide
    · intro c hc
      rw [← List.cons_append, List.getLast?_concat] at hc
      cases hc
      decide
  have hafter : Text.trim (' ' :: '"' :: (first ++ ['"'])) = '"' :: (first ++ ['"']) := by
    have hpad := Text.trim_pad (List.cons_ne_nil _ _) hquoted Indent.space.blank
      (List.forall_mem_nil _)
    rw [List.append_nil] at hpad
    exact hpad
  have hunquote : Statement.unquote ('"' :: (first ++ ['"'])) = first := by
    rw [Statement.unquote, List.getLast?_concat, List.dropLast_concat]
    rfl
  rw [Statement.ofBody_of_head_ne hhead, Statement.assignment?, assignmentLine,
    Text.cutFirst_append hseparator (by decide)]
  simp only [hbefore, hafter, hunquote, if_neg hkey.ne_nil]

end Lines

namespace Reader

variable {reader middle next : Reader}

/-- A reader takes lines and gets to another reader. -/
inductive Takes : Reader → List (List Char) → Reader → Prop
  | nil {reader : Reader} : Takes reader [] reader
  | cons {reader middle next : Reader} {raw : List Char} {rest : List (List Char)}
      (hstep : reader.step (Line.ofText raw) = .ok middle) (hrest : Takes middle rest next) :
      Takes reader (raw :: rest) next

theorem Takes.run {lines : List (List Char)} (h : reader.Takes lines next) (number : Nat) :
    reader.run number lines = .ok next := by
  induction h generalizing number with
  | nil => rfl
  | cons hstep hrest ih =>
    rw [Reader.run, hstep]
    exact ih (number + 1)

theorem takes_of_run {lines : List (List Char)} {number : Nat}
    (h : reader.run number lines = .ok next) : reader.Takes lines next := by
  induction lines generalizing reader number with
  | nil =>
    cases h
    exact .nil
  | cons raw rest ih =>
    rw [run] at h
    cases hstep : reader.step (Line.ofText raw) with
    | error reason =>
      rw [hstep] at h
      cases h
    | ok middle =>
      rw [hstep] at h
      exact .cons hstep (ih h)

theorem Takes.append {lines more : List (List Char)} (h : reader.Takes lines middle)
    (hmore : middle.Takes more next) : reader.Takes (lines ++ more) next := by
  induction h with
  | nil => exact hmore
  | cons hstep hrest ih => exact .cons hstep (ih hmore)

theorem name?_settle (reader : Reader) : reader.settle.place.name? = reader.place.name? := by
  obtain ⟨items, place⟩ := reader
  cases place with
  | outside => rfl
  | inside name => rfl
  | reading name key lines => rfl

@[simp] theorem settle_settle (reader : Reader) : reader.settle.settle = reader.settle := by
  obtain ⟨items, place⟩ := reader
  cases place with
  | outside => rfl
  | inside name => rfl
  | reading name key lines => rfl

theorem step_headerLine (reader : Reader) {name : List Char} (hname : IsName name) :
    reader.step (Line.ofText (headerLine name)) =
      .ok { items := reader.settle.items ++ [.header (String.ofList name)]
            place := .inside (String.ofList name) } := by
  have hline : Line.ofText (headerLine name) = .body false (headerLine name) :=
    Line.ofText_blank_append (isName_headerLine hname)
      (fun c hc => by cases hc; decide) (List.forall_mem_nil _)
  rw [hline, step]
  simp only [Bool.false_and, Bool.false_eq_true, if_false, begin, ofBody_headerLine hname]

theorem step_assignmentLine {reader : Reader} {name : String}
    (hplace : reader.place.name? = some name) {key first : List Char} (hkey : IsKey key)
    (hfirst : '\n' ∉ first) :
    reader.step (Line.ofText (assignmentLine key first)) =
      .ok { items := reader.settle.items, place := .reading name (String.ofList key) [first] } := by
  have hline : Line.ofText (assignmentLine key first) = .body false (assignmentLine key first) :=
    Line.ofText_blank_append (isName_assignmentLine hkey hfirst)
      (fun c hc => (head_assignmentLine hkey hc).2.2) (List.forall_mem_nil _)
  rw [hline, step]
  simp only [Bool.false_and, Bool.false_eq_true, if_false, begin,
    ofBody_assignmentLine hkey first, name?_settle, hplace]

theorem step_continuation (indent : Indent) {items : List Item} {name key : String}
    {lines : List (List Char)} {line : List Char} (hline : Continues line) :
    ({ items, place := .reading name key lines } : Reader).step
        (Line.ofText (indent.text ++ line)) =
      .ok { items, place := .reading name key (lines ++ [line]) } := by
  have hbody : Line.ofText (indent.text ++ line) = .body true line := by
    rw [Line.ofText_blank_append hline.toIsName hline.head indent.blank]
    simp [indent.ne_nil]
  have hassigns : Statement.isAssignment line = false :=
    Statement.isAssignment_eq_false_iff.2 hline.key
  rw [hbody, step]
  simp only [hassigns, Bool.not_false, Bool.and_self, if_true, continueWith]

theorem takes_continuations (indent : Indent) (items : List Item) (name key : String)
    {more : List (List Char)} (hmore : ∀ line ∈ more, Continues line) (lines : List (List Char)) :
    Takes { items, place := .reading name key lines }
      (more.map fun line => indent.text ++ line)
      { items, place := .reading name key (lines ++ more) } := by
  induction more generalizing lines with
  | nil =>
    rw [List.append_nil]
    exact .nil
  | cons line rest ih =>
    obtain ⟨hline, hrest⟩ := List.forall_mem_cons.1 hmore
    have htail := ih hrest (lines ++ [line])
    rw [List.append_assoc, List.singleton_append] at htail
    exact .cons (step_continuation indent hline) htail

theorem takes_lines (indent : Indent) {item : Item} (hformed : item.WellFormed)
    {rest : List Item} (hplaced : Item.Placed reader.place.name? (item :: rest)) :
    ∃ next, reader.Takes (item.lines indent) next ∧
      next.settle.items = reader.settle.items ++ [item] ∧
      Item.Placed next.place.name? rest := by
  cases hformed with
  | @header name hname =>
    refine ⟨_, .cons (step_headerLine reader hname) .nil, ?_, ?_⟩
    · rw [String.ofList_toList]
      rfl
    · rw [String.ofList_toList]
      exact hplaced
  | @assignment name key value hname hkey hvalue =>
    obtain ⟨hopened, hrest⟩ := hplaced
    cases hpieces : Text.cut '\n' value.toList with
    | nil => exact absurd hpieces (Text.cut_ne_nil '\n' value.toList)
    | cons first more =>
      have hfirst : '\n' ∉ first :=
        Text.separator_not_mem_cut value.toList first (by rw [hpieces]; exact List.mem_cons_self)
      rw [IsValue, hpieces] at hvalue
      have hstep := step_assignmentLine hopened hkey hfirst
      have hmore := takes_continuations indent reader.settle.items name
        (String.ofList key.toList) hvalue [first]
      refine ⟨{ items := reader.settle.items
                place := .reading name (String.ofList key.toList) ([first] ++ more) }, ?_, ?_, ?_⟩
      · rw [Item.lines, hpieces]
        exact .cons hstep hmore
      · simp only [settle, List.singleton_append]
        rw [← hpieces, Text.intercalate_cut, String.ofList_toList, String.ofList_toList]
      · rw [hopened] at hrest
        exact hrest

/-- Well-formed items that stand under their headers are read back from their lines. -/
theorem takes_items (indent : Indent) {items : List Item}
    (hformed : ∀ item ∈ items, item.WellFormed)
    (hplaced : Item.Placed reader.place.name? items) :
    ∃ next, reader.Takes (items.flatMap (Item.lines indent)) next ∧
      next.settle.items = reader.settle.items ++ items := by
  induction items generalizing reader with
  | nil => exact ⟨reader, .nil, by rw [List.append_nil]⟩
  | cons item rest ih =>
    obtain ⟨hitem, hrest⟩ := List.forall_mem_cons.1 hformed
    obtain ⟨middle, hfirst, hitems, hmiddle⟩ := takes_lines indent hitem hplaced
    obtain ⟨next, hmore, hlast⟩ := ih hrest hmiddle
    refine ⟨next, hfirst.append hmore, ?_⟩
    rw [hlast, hitems, List.append_assoc, List.singleton_append]

end Reader

theorem exists_takes_of_readItems {content : String} {items : List Item}
    (h : readItems content = .ok items) :
    ∃ last, ({} : Reader).Takes (Text.lines content.toList) last ∧ last.settle.items = items := by
  rw [readItems] at h
  cases hrun : ({} : Reader).run 1 (Text.lines content.toList) with
  | error fault =>
    rw [hrun] at h
    cases h
  | ok last =>
    rw [hrun] at h
    exact ⟨last, Reader.takes_of_run hrun, Except.ok.inj h⟩

theorem newline_not_mem_lines_item (indent : Indent) {item : Item} (h : item.WellFormed) :
    ∀ line ∈ item.lines indent, '\n' ∉ line := by
  cases h with
  | header hname =>
    intro line hline
    obtain rfl := List.mem_singleton.1 hline
    exact (isName_headerLine hname).newline
  | @assignment name key value hname hkey hvalue =>
    intro line hline
    rcases List.mem_cons.1 hline with rfl | hmore
    · refine (isName_assignmentLine hkey ?_).newline
      cases hpieces : Text.cut '\n' value.toList with
      | nil => exact List.not_mem_nil
      | cons first more =>
        exact Text.separator_not_mem_cut value.toList first
          (by rw [hpieces]; exact List.mem_cons_self)
    · obtain ⟨more, hmem, rfl⟩ := List.mem_map.1 hmore
      rw [List.mem_append]
      exact fun hmem' => hmem'.elim indent.newline (hvalue more hmem).newline

theorem readItems_lines (indent : Indent) {items : List Item}
    (hformed : ∀ item ∈ items, item.WellFormed) (hplaced : Item.Placed none items) :
    readItems (String.ofList
        ((items.flatMap (Item.lines indent)).flatMap fun line => line ++ ['\n'])) =
      .ok items := by
  have hlines : ∀ line ∈ items.flatMap (Item.lines indent), '\n' ∉ line := by
    intro line hline
    obtain ⟨item, hitem, hmem⟩ := List.mem_flatMap.1 hline
    exact newline_not_mem_lines_item indent (hformed item hitem) line hmem
  have hempty : Item.Placed ({} : Reader).place.name? items := hplaced
  obtain ⟨last, htakes, hitems⟩ := Reader.takes_items indent hformed hempty
  rw [readItems, String.toList_ofList, Text.lines_flatMap hlines, htakes.run 1]
  show Except.ok last.settle.items = _
  rw [hitems]
  rfl

end LayeredConfig
