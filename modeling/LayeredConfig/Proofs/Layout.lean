import LayeredConfig.Proofs.Faults

/-!
# Layout

What a file says does not depend on how it is laid out. Blanks at the ends of
lines, carriage returns among them, are not looked at; a comment is taken
without any effect, wherever the reader stands; a blank line completes the value
that is being read, and another one finds nothing to complete; and the newline
at the end of a file opens no further line.

A line that is added or removed moves the numbers of the lines behind it, and
this is all that a fault shows of it. Changes of layout are composed one by one
(`Relaid`), each with what it does to the numbers of lines.
-/

namespace LayeredConfig

/-- A text ends where a line begins. -/
def AtLineStart (front : List Char) : Prop :=
  front = [] ∨ front.getLast? = some '\n'

/-- A line that says nothing after a text: a comment, or a blank line after a blank line. -/
inductive SaysNothing (front line : List Char) : Prop
  | comment (h : IsCommentLine line)
  | again {last : List Char} (h : IsBlankLine line)
      (hlast : (Text.lines front).getLast? = some last) (hblank : IsBlankLine last)

/-- A text gets one more line, which says nothing, after so many lines. -/
inductive AddsLine : List Char → List Char → Nat → Prop
  | intro (front line back : List Char) (hfront : AtLineStart front)
      (hline : '\n' ∉ line) (h : SaysNothing front line) :
      AddsLine (front ++ back) (front ++ (line ++ '\n' :: back)) (Text.lines front).length

/-- A text gets blanks at the end of a line, or a newline at its end. -/
inductive Pads : List Char → List Char → Prop
  | blanks (front blanks back : List Char)
      (hblanks : ∀ c ∈ blanks, Text.isBlank c = true ∧ c ≠ '\n')
      (hback : back = [] ∨ back.head? = some '\n') :
      Pads (front ++ back) (front ++ (blanks ++ back))
  | newline (text : List Char) : Pads text (text ++ ['\n'])

/-- The number of a line once a line is added after so many lines. -/
def pushed (before number : Nat) : Nat :=
  if before < number then number + 1 else number

/-- The number of a line once the line after so many lines is removed. -/
def pulled (before number : Nat) : Nat :=
  if before < number then number - 1 else number

theorem pulled_pushed (before number : Nat) : pulled before (pushed before number) = number := by
  rw [pushed]
  split
  · rw [pulled, if_pos (by omega), Nat.add_sub_cancel]
  · next h => exact if_neg h

/-- A text is laid out in another way; the line that had one number has another one then. -/
inductive Relaid (text : List Char) : List Char → (Nat → Nat) → Prop
  | refl : Relaid text text id
  | padded {middle other : List Char} {number : Nat → Nat} (h : Relaid text middle number)
      (hstep : Pads middle other) : Relaid text other number
  | stripped {middle other : List Char} {number : Nat → Nat} (h : Relaid text middle number)
      (hstep : Pads other middle) : Relaid text other number
  | added {middle other : List Char} {number : Nat → Nat} {before : Nat}
      (h : Relaid text middle number) (hstep : AddsLine middle other before) :
      Relaid text other fun n => pushed before (number n)
  | removed {middle other : List Char} {number : Nat → Nat} {before : Nat}
      (h : Relaid text middle number) (hstep : AddsLine other middle before) :
      Relaid text other fun n => pulled before (number n)

/-- The text with a carriage return before every newline. -/
def crlf (text : List Char) : List Char :=
  text.flatMap fun c => if c = '\n' then ['\r', '\n'] else [c]

theorem forall_mem_return : ∀ c ∈ ['\r'], Text.isBlank c = true ∧ c ≠ '\n' :=
  List.forall_mem_singleton.2 ⟨rfl, by decide⟩

theorem relaid_crlf (text : List Char) : Relaid text (crlf text) id := by
  have hrest : ∀ rest front, Relaid text (front ++ rest) id →
      Relaid text (front ++ crlf rest) id := by
    intro rest
    induction rest with
    | nil => exact fun front h => h
    | cons c more ih =>
      intro front h
      rw [crlf, List.flatMap_cons, ← List.append_assoc]
      refine ih _ ?_
      split
      · next hc =>
        subst hc
        have hpads : Pads (front ++ '\n' :: more) (front ++ (['\r'] ++ '\n' :: more)) :=
          .blanks front ['\r'] ('\n' :: more) forall_mem_return (.inr rfl)
        rw [List.append_assoc]
        exact h.padded hpads
      · rw [List.append_assoc]
        exact h
  exact hrest text [] .refl

namespace Text

theorem lines_append {front : List Char} (h : AtLineStart front) (back : List Char) :
    lines (front ++ back) = lines front ++ lines back := by
  rcases h with rfl | hlast
  · rfl
  · obtain ⟨text, rfl⟩ := List.getLast?_eq_some_iff.1 hlast
    rw [List.append_assoc, List.singleton_append, lines_append_newline_append]

theorem lines_of_not_mem {line : List Char} (h : '\n' ∉ line) (hne : line ≠ []) :
    lines line = [line] := by
  induction line with
  | nil => exact absurd rfl hne
  | cons c rest ih =>
    obtain ⟨hc, hrest⟩ := List.ne_and_not_mem_of_not_mem_cons h
    rw [lines, if_neg hc.symm]
    cases rest with
    | nil => rfl
    | cons d more => rw [ih hrest (List.cons_ne_nil d more)]

/-- Every text is some lines that are ended and what stands after them. -/
theorem exists_lineStart (text : List Char) :
    ∃ front line, text = front ++ line ∧ AtLineStart front ∧ '\n' ∉ line := by
  induction text with
  | nil => exact ⟨[], [], rfl, .inl rfl, List.not_mem_nil⟩
  | cons c rest ih =>
    obtain ⟨front, line, rfl, hfront, hline⟩ := ih
    rcases hfront with rfl | hlast
    · by_cases hc : c = '\n'
      · exact ⟨[c], line, rfl, .inr (by rw [hc]; rfl), hline⟩
      · refine ⟨[], c :: line, rfl, .inl rfl, ?_⟩
        rw [List.mem_cons]
        exact fun hmem => hmem.elim (fun heq => hc heq.symm) hline
    · refine ⟨c :: front, line, rfl, .inr ?_, hline⟩
      rw [List.getLast?_cons, hlast]
      rfl

end Text

/-- The fault with its line counted in another way. -/
def Fault.renumber (number : Nat → Nat) (fault : Fault) : Fault :=
  { fault with line := number fault.line }

namespace Reader

variable {reader middle : Reader} {front back lines : List (List Char)} {line : List Char}
  {number : Nat} {fault : Fault}

theorem run_congr {lines lines' : List (List Char)}
    (h : lines.map Text.trimEnd = lines'.map Text.trimEnd) (reader : Reader) (number : Nat) :
    reader.run number lines = reader.run number lines' := by
  induction lines generalizing lines' reader number with
  | nil =>
    obtain rfl := List.map_eq_nil_iff.1 h.symm
    rfl
  | cons raw rest ih =>
    obtain ⟨raw', rest', rfl, hraw, hrest⟩ := List.map_eq_cons_iff.1 h.symm
    rw [run, run, Line.ofText_congr hraw, hraw]
    split
    · rfl
    · exact ih hrest.symm _ _

theorem run_append_of_error (h : reader.run number front = .error fault)
    (rest : List (List Char)) : reader.run number (front ++ rest) = .error fault := by
  obtain ⟨good, raw, more, middle, reason, rfl, htakes, hstep, rfl⟩ := run_eq_error_iff.1 h
  refine run_eq_error_iff.2 ⟨good, raw, more ++ rest, middle, reason, ?_, htakes, hstep, rfl⟩
  rw [List.append_assoc, List.cons_append]

theorem run_succ (reader : Reader) (number : Nat) (lines : List (List Char)) :
    reader.run (number + 1) lines =
      (reader.run number lines).mapError (Fault.renumber (· + 1)) := by
  induction lines generalizing reader number with
  | nil => rfl
  | cons raw rest ih =>
    rw [run, run]
    split
    · rfl
    · exact ih _ _

/-- A line that changes nothing where it stands only moves the numbers of the lines behind it. -/
theorem run_insert (h : ∀ middle, reader.Takes front middle →
      middle.step (Line.ofText line) = .ok middle) (back : List (List Char)) :
    reader.run 1 (front ++ line :: back) =
      (reader.run 1 (front ++ back)).mapError (Fault.renumber (pushed front.length)) := by
  cases hfront : reader.run 1 front with
  | error fault =>
    have hbounds := fault_bounds hfront
    have hnumber : fault.renumber (pushed front.length) = fault := by
      rw [Fault.renumber, pushed, if_neg (by omega)]
    rw [run_append_of_error hfront, run_append_of_error hfront]
    show _ = Except.error (fault.renumber _)
    rw [hnumber]
  | ok middle =>
    have htakes := takes_of_run hfront
    rw [htakes.run_append, htakes.run_append, run, h middle htakes]
    show middle.run (1 + front.length + 1) back = _
    rw [run_succ]
    cases hback : middle.run (1 + front.length) back with
    | ok last => rfl
    | error fault =>
      have hbounds := fault_bounds hback
      have hnumber : pushed front.length fault.line = fault.line + 1 := if_pos (by omega)
      show Except.error (fault.renumber _) = Except.error (fault.renumber _)
      rw [Fault.renumber, Fault.renumber, hnumber]

end Reader

/-- What some lines say. -/
def readLines (lines : List (List Char)) : Except Fault (List Item) :=
  (fun reader => reader.settle.items) <$> ({} : Reader).run 1 lines

section Lines

variable {text other : List Char} {lines lines' : List (List Char)} {before : Nat}

theorem mapError_renumber_id {α : Type} (outcome : Except Fault α) :
    outcome.mapError (Fault.renumber id) = outcome := by
  cases outcome with
  | error fault => rfl
  | ok value => rfl

theorem mapError_renumber_renumber {α : Type} (f g : Nat → Nat) (outcome : Except Fault α) :
    (outcome.mapError (Fault.renumber f)).mapError (Fault.renumber g) =
      outcome.mapError (Fault.renumber fun n => g (f n)) := by
  cases outcome with
  | error fault => rfl
  | ok value => rfl

theorem map_mapError {α β : Type} (f : α → β) (g : Fault → Fault) (outcome : Except Fault α) :
    f <$> outcome.mapError g = (f <$> outcome).mapError g := by
  cases outcome with
  | error fault => rfl
  | ok value => rfl

theorem readLines_congr (h : lines.map Text.trimEnd = lines'.map Text.trimEnd) :
    readLines lines = readLines lines' := by
  rw [readLines, readLines, Reader.run_congr h]

/-- A blank line at the end completes the last value, which the end does anyway. -/
theorem readLines_concat_blank {line : List Char} (h : IsBlankLine line)
    (lines : List (List Char)) : readLines (lines ++ [line]) = readLines lines := by
  rw [readLines, readLines]
  cases hrun : ({} : Reader).run 1 lines with
  | error fault => rw [Reader.run_append_of_error hrun]
  | ok last =>
    rw [(Reader.takes_of_run hrun).run_append, Reader.run, Line.ofText_eq_blank_iff.2 h]
    show Except.ok last.settle.settle.items = Except.ok last.settle.items
    rw [Reader.settle_settle]

theorem readLines_pads (h : Pads text other) :
    readLines (Text.lines other) = readLines (Text.lines text) := by
  cases h with
  | newline =>
    rcases Text.lines_concat_newline text with hlines | hlines
    · rw [hlines]
    · rw [hlines, readLines_concat_blank (List.forall_mem_nil _)]
  | blanks front blanks back hblanks hback =>
    obtain ⟨before, line, rfl, hbefore, hline⟩ := Text.exists_lineStart front
    have hblank : IsBlankLine blanks := fun c hc => (hblanks c hc).1
    have hlonger : '\n' ∉ line ++ blanks := by
      rw [List.mem_append]
      exact fun hmem => hmem.elim hline fun hc => (hblanks _ hc).2 rfl
    have hsame : ∀ rest : List (List Char),
        ((line ++ blanks) :: rest).map Text.trimEnd = (line :: rest).map Text.trimEnd := by
      intro rest
      rw [List.map_cons, List.map_cons, Text.trimEnd_append_blank hblank]
    rw [List.append_assoc, List.append_assoc, Text.lines_append hbefore,
      Text.lines_append hbefore, ← List.append_assoc line]
    cases back with
    | cons c rest =>
      obtain rfl : c = '\n' := by simpa using hback
      rw [Text.lines_append_newline hline, Text.lines_append_newline hlonger]
      exact readLines_congr (by rw [List.map_append, List.map_append, hsame])
    | nil =>
      rw [List.append_nil, List.append_nil]
      -- Blanks after the last newline make a line where there was none.
      by_cases hempty : line = []
      · subst hempty
        rw [List.nil_append] at hlonger ⊢
        by_cases hnone : blanks = []
        · rw [hnone]
        · rw [Text.lines_of_not_mem hlonger hnone, readLines_concat_blank hblank]
          exact congrArg readLines (List.append_nil _).symm
      · rw [Text.lines_of_not_mem hline hempty,
          Text.lines_of_not_mem hlonger (List.append_ne_nil_of_left_ne_nil hempty blanks)]
        exact readLines_congr (by rw [List.map_append, List.map_append, hsame])

theorem SaysNothing.step_eq {front line : List Char} (h : SaysNothing front line)
    {middle : Reader} (htakes : ({} : Reader).Takes (Text.lines front) middle) :
    middle.step (Line.ofText line) = .ok middle := by
  cases h with
  | comment hcomment =>
    rw [Line.ofText_eq_comment_iff.2 hcomment]
    rfl
  | @again last hblank hlast hbefore =>
    obtain ⟨init, hlines⟩ := List.getLast?_eq_some_iff.1 hlast
    rw [hlines] at htakes
    obtain ⟨reader, -, hmiddle⟩ := htakes.split
    cases hmiddle with
    | cons hstep hrest =>
      cases hrest
      rw [Line.ofText_eq_blank_iff.2 hbefore] at hstep
      cases hstep
      rw [Line.ofText_eq_blank_iff.2 hblank]
      exact congrArg Except.ok (Reader.settle_settle reader)

theorem readLines_addsLine (h : AddsLine text other before) :
    readLines (Text.lines other) =
      (readLines (Text.lines text)).mapError (Fault.renumber (pushed before)) := by
  cases h with
  | intro front line back hfront hline hnothing =>
    rw [Text.lines_append hfront, Text.lines_append hfront, Text.lines_append_newline hline,
      readLines, readLines, Reader.run_insert fun middle => hnothing.step_eq, map_mapError]

theorem readLines_relaid {number : Nat → Nat} (h : Relaid text other number) :
    readLines (Text.lines other) =
      (readLines (Text.lines text)).mapError (Fault.renumber number) := by
  induction h with
  | refl => rw [mapError_renumber_id]
  | padded h hstep ih => rw [readLines_pads hstep, ih]
  | stripped h hstep ih => rw [← readLines_pads hstep, ih]
  | added h hstep ih => rw [readLines_addsLine hstep, ih, mapError_renumber_renumber]
  | @removed middle other number before h hstep ih =>
    rw [← mapError_renumber_renumber number (pulled before), ← ih, readLines_addsLine hstep,
      mapError_renumber_renumber]
    simp only [pulled_pushed]
    exact (mapError_renumber_id _).symm

end Lines

namespace Source

/-- A file says the same however it is laid out: the source that is read from it is the same, or it
is refused for the same reason with the same text shown, at the line that the faulty line has
become. Carriage returns at the ends of all lines are one such change. -/
theorem layout_unnoticed :
    (∀ text, Relaid text (crlf text) id) ∧
    ∀ content other number, Relaid content.toList other.toList number → ∀ path,
      read path other = (read path content).mapError (Fault.renumber number) := by
  refine ⟨relaid_crlf, fun content other number h path => ?_⟩
  rw [read, read, ← map_mapError]
  exact congrArg _ (readLines_relaid h)

/-- A comment inside a value and a carriage return move the faulty line, and nothing else. -/
theorem layout_unnoticed_comment :
    ∃ number,
      Relaid "[s]\nk = a\n  b\n\n  c".toList "[s]\nk = a\n; note\n  b\r\n\n  c".toList number ∧
      number 5 = 6 ∧
      read "a.conf" "[s]\nk = a\n  b\n\n  c" = .error ⟨5, "  c", .strayContinuation⟩ ∧
      read "a.conf" "[s]\nk = a\n; note\n  b\r\n\n  c" =
        .error ⟨6, "  c", .strayContinuation⟩ := by
  have hcomment : IsCommentLine "; note".toList :=
    ⟨[], ';', " note".toList, rfl, List.forall_mem_nil _, .inr rfl⟩
  have hadds : AddsLine "[s]\nk = a\n  b\n\n  c".toList
      "[s]\nk = a\n; note\n  b\n\n  c".toList 2 :=
    .intro "[s]\nk = a\n".toList "; note".toList "  b\n\n  c".toList (.inr rfl) (by decide)
      (.comment hcomment)
  have hpads : Pads "[s]\nk = a\n; note\n  b\n\n  c".toList
      "[s]\nk = a\n; note\n  b\r\n\n  c".toList :=
    .blanks "[s]\nk = a\n; note\n  b".toList ['\r'] "\n\n  c".toList forall_mem_return
      (.inr rfl)
  have hrelaid := (Relaid.refl.added hadds).padded hpads
  refine ⟨_, hrelaid, rfl, rfl, ?_⟩
  rw [layout_unnoticed.2 _ _ _ hrelaid]
  rfl

end Source

end LayeredConfig
