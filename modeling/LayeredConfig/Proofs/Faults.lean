import LayeredConfig.Proofs.HasKind
import LayeredConfig.Proofs.LineKinds
import LayeredConfig.Proofs.Written

/-!
# Faults

A file is refused at the first line that cannot be taken. All that a fault tells
is decided there: a reader that has taken the lines before it stands in one place
(`Reader.run_eq_error_iff`), the line fails from that place, and nothing that
follows is looked at. The end of a file is no line and never fails, so a file
all of whose beginnings are accepted is accepted.
-/

namespace LayeredConfig

namespace Reader

variable {reader middle next : Reader} {front rest lines : List (List Char)} {number : Nat}
  {fault : Fault}

theorem Takes.run_append (h : reader.Takes front middle) (number : Nat)
    (rest : List (List Char)) :
    reader.run number (front ++ rest) = middle.run (number + front.length) rest := by
  induction h generalizing number with
  | nil => rfl
  | @cons reader middle next raw more hstep hrest ih =>
    have hnumber : number + (raw :: more).length = number + 1 + more.length := by
      rw [List.length_cons, Nat.add_comm more.length 1, Nat.add_assoc]
    rw [List.cons_append, Reader.run, hstep, hnumber]
    exact ih (number + 1)

theorem Takes.split (h : reader.Takes (front ++ rest) next) :
    ∃ middle, reader.Takes front middle ∧ middle.Takes rest next := by
  induction front generalizing reader with
  | nil => exact ⟨reader, .nil, h⟩
  | cons raw more ih =>
    cases h with
    | cons hstep hmore =>
      obtain ⟨middle, hfront, hrest⟩ := ih hmore
      exact ⟨middle, .cons hstep hfront, hrest⟩

/-- Only a line with a body is ever refused. -/
theorem body_of_step_error {line : Line} {reason : Reason}
    (h : reader.step line = .error reason) : ∃ indented text, line = .body indented text := by
  cases line with
  | blank => cases h
  | comment => cases h
  | body indented text => exact ⟨indented, text, rfl⟩

/-- A fault names the first line that fails, counted from the number of the first. -/
theorem run_eq_error_iff :
    reader.run number lines = .error fault ↔
      ∃ front raw rest middle reason, lines = front ++ raw :: rest ∧
        reader.Takes front middle ∧ middle.step (Line.ofText raw) = .error reason ∧
        fault = ⟨number + front.length, String.ofList (Text.trimEnd raw), reason⟩ := by
  constructor
  · intro h
    induction lines generalizing reader number with
    | nil => cases h
    | cons raw more ih =>
      rw [run] at h
      cases hstep : reader.step (Line.ofText raw) with
      | error reason =>
        rw [hstep] at h
        cases h
        exact ⟨[], raw, more, reader, reason, rfl, .nil, hstep, rfl⟩
      | ok middle =>
        rw [hstep] at h
        obtain ⟨front, bad, rest, last, reason, rfl, htakes, hbad, rfl⟩ := ih h
        refine ⟨raw :: front, bad, rest, last, reason, rfl, .cons hstep htakes, hbad, ?_⟩
        rw [List.length_cons, Nat.add_comm front.length 1, ← Nat.add_assoc]
  · rintro ⟨front, raw, rest, middle, reason, rfl, htakes, hstep, rfl⟩
    rw [htakes.run_append, run, hstep]

theorem fault_bounds (h : reader.run number lines = .error fault) :
    number ≤ fault.line ∧ fault.line < number + lines.length := by
  obtain ⟨front, raw, rest, middle, reason, rfl, -, -, rfl⟩ := run_eq_error_iff.1 h
  rw [List.length_append, List.length_cons]
  exact ⟨Nat.le_add_right _ _, by show number + front.length < _; omega⟩

end Reader

theorem exists_readItems_iff {content : String} :
    (∃ items, readItems content = .ok items) ↔
      ∃ last, ({} : Reader).Takes (Text.lines content.toList) last := by
  constructor
  · rintro ⟨items, hitems⟩
    obtain ⟨last, htakes, -⟩ := exists_takes_of_readItems hitems
    exact ⟨last, htakes⟩
  · rintro ⟨last, htakes⟩
    refine ⟨last.settle.items, ?_⟩
    rw [readItems, htakes.run 1]
    rfl

theorem readItems_eq_error_iff {content : String} {fault : Fault} :
    readItems content = .error fault ↔
      ({} : Reader).run 1 (Text.lines content.toList) = .error fault :=
  map_eq_error_iff

/-- The first lines of a file, each of them ended. -/
def firstLines (content : String) (count : Nat) : String :=
  String.ofList (((Text.lines content.toList).take count).flatMap fun line => line ++ ['\n'])

theorem lines_firstLines (content : String) (count : Nat) :
    Text.lines (firstLines content count).toList = (Text.lines content.toList).take count := by
  rw [firstLines, String.toList_ofList]
  exact Text.lines_flatMap fun line hline =>
    Text.newline_not_mem_lines content.toList line (List.mem_of_mem_take hline)

namespace Source

variable {path content : String}

theorem exists_read_iff :
    (∃ source, read path content = .ok source) ↔ ∃ items, readItems content = .ok items := by
  constructor
  · rintro ⟨source, hsource⟩
    obtain ⟨items, hitems, -⟩ := exists_items_of_read hsource
    exact ⟨items, hitems⟩
  · rintro ⟨items, hitems⟩
    refine ⟨ofItems path items, ?_⟩
    rw [read, hitems]
    rfl

theorem read_eq_error_iff {fault : Fault} :
    read path content = .error fault ↔ readItems content = .error fault :=
  map_eq_error_iff

end Source

/-- A fault is at the first line of a file that cannot be taken. -/
structure Fault.IsFirst (fault : Fault) (content : String) : Prop where
  positive : 1 ≤ fault.line
  le_length : fault.line ≤ (Text.lines content.toList).length
  /-- The lines before it are accepted alone, whether or not the last of them is ended. -/
  before : ∀ path alone : String,
    Text.lines alone.toList = (Text.lines content.toList).take (fault.line - 1) →
      ∃ source, Source.read path alone = .ok source
  /-- The text reported is that of the line, which states something. -/
  reported : ∃ raw, (Text.lines content.toList)[fault.line - 1]? = some raw ∧
    fault.text = String.ofList (Text.trimEnd raw) ∧ ¬IsBlankLine raw ∧ ¬IsCommentLine raw
  /-- Whatever follows the line, the fault is the same. -/
  after : ∀ path other : String,
    (Text.lines other.toList).take fault.line = (Text.lines content.toList).take fault.line →
      Source.read path other = .error fault

theorem Fault.isFirst_of_readItems {content : String} {fault : Fault}
    (h : readItems content = .error fault) : fault.IsFirst content := by
  have hbounds := Reader.fault_bounds (readItems_eq_error_iff.1 h)
  obtain ⟨front, raw, rest, middle, reason, hlines, htakes, hstep, rfl⟩ :=
    Reader.run_eq_error_iff.1 (readItems_eq_error_iff.1 h)
  have hfront : (Text.lines content.toList).take (1 + front.length - 1) = front := by
    rw [hlines, Nat.add_sub_cancel_left, List.take_left]
  have hraw : (Text.lines content.toList)[1 + front.length - 1]? = some raw := by
    rw [hlines, Nat.add_sub_cancel_left, List.getElem?_append_right (Nat.le_refl _), Nat.sub_self]
    rfl
  have hfaulty : (Text.lines content.toList).take (1 + front.length) = front ++ [raw] := by
    rw [hlines, Nat.add_comm, List.take_length_add_append]
    rfl
  constructor
  · exact hbounds.1
  · exact Nat.lt_one_add_iff.1 hbounds.2
  · intro path alone halone
    refine Source.exists_read_iff.2 (exists_readItems_iff.2 ⟨middle, ?_⟩)
    rw [halone, hfront]
    exact htakes
  · obtain ⟨indented, text, hbody⟩ := Reader.body_of_step_error hstep
    obtain ⟨hblank, hcomment, -⟩ := Line.ofText_eq_body_iff.1 hbody
    exact ⟨raw, hraw, rfl, hblank, hcomment⟩
  · intro path other hother
    refine Source.read_eq_error_iff.2 (readItems_eq_error_iff.2 (Reader.run_eq_error_iff.2 ?_))
    refine ⟨front, raw, (Text.lines other.toList).drop (1 + front.length), middle, reason, ?_,
      htakes, hstep, rfl⟩
    rw [← List.singleton_append, ← List.append_assoc, ← hfaulty, ← hother,
      List.take_append_drop]

/-- The beginnings of an accepted file are accepted, and a file whose beginnings are accepted is. -/
theorem Source.exists_read_iff_firstLines (path content : String) :
    (∃ source, read path content = .ok source) ↔
      ∀ count ≤ (Text.lines content.toList).length,
        ∃ source, read path (firstLines content count) = .ok source := by
  simp only [exists_read_iff, exists_readItems_iff, lines_firstLines]
  constructor
  · rintro ⟨last, htakes⟩ count -
    rw [← List.take_append_drop count (Text.lines content.toList)] at htakes
    obtain ⟨middle, hmiddle, -⟩ := htakes.split
    exact ⟨middle, hmiddle⟩
  · intro h
    have hall := h _ (Nat.le_refl _)
    rwa [List.take_length] at hall

namespace Source

/-- A file is refused at its first bad line, and for what stands up to there: the lines before it
are accepted alone, the line itself is shown, and what follows makes no difference. A file is
accepted if all its beginnings are. -/
theorem refused_at_first :
    (∀ path content fault, read path content = .error fault → fault.IsFirst content) ∧
    ∀ path content, (∃ source, read path content = .ok source) ↔
      ∀ count ≤ (Text.lines content.toList).length,
        ∃ source, read path (firstLines content count) = .ok source :=
  ⟨fun _ _ _ h => Fault.isFirst_of_readItems (read_eq_error_iff.1 h), exists_read_iff_firstLines⟩

/-- A stray continuation is refused, whatever the lines behind it are. -/
theorem refused_at_first_stray :
    read "a.conf" "[s]\nk = v\n\n  stray \n= x\n" = .error ⟨4, "  stray", .strayContinuation⟩ ∧
      (∃ source, read "a.conf" "[s]\nk = v\n\n" = .ok source) ∧
      read "b.conf" "[s]\nk = v\n\n  stray \n[t]" = .error ⟨4, "  stray", .strayContinuation⟩ := by
  have hread : read "a.conf" "[s]\nk = v\n\n  stray \n= x\n" =
      .error ⟨4, "  stray", .strayContinuation⟩ := rfl
  have hbefore : Text.lines "[s]\nk = v\n\n".toList =
      (Text.lines "[s]\nk = v\n\n  stray \n= x\n".toList).take 3 := by decide
  have hafter : (Text.lines "[s]\nk = v\n\n  stray \n[t]".toList).take 4 =
      (Text.lines "[s]\nk = v\n\n  stray \n= x\n".toList).take 4 := by decide
  have hfirst := refused_at_first.1 _ _ _ hread
  exact ⟨hread, hfirst.before _ _ hbefore, hfirst.after _ _ hafter⟩

end Source

end LayeredConfig
