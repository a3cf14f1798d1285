import LayeredConfig.Proofs.LineKinds
import LayeredConfig.Proofs.Statements

/-!
# What the lines of a file are for

Every line of an accepted file plays one role, which can be told from its
characters and from whether a value may still be continued when it comes. The
items of the file are told by the roles alone, and nothing else goes into them:
a header opens a section, and an assignment has the value that its own line
begins and the lines after it continue, up to the first line that is neither a
comment nor continues a value.

The reader does not look ahead. It holds a value back until the value is
complete, so what it has taken in so far is compared with the lines that are
still to come (`Reader.told_of_takes`): the value that it holds is completed by
the next of them.
-/

namespace LayeredConfig

/-- What a line of a file is for. -/
inductive Role where
  /-- It completes the value that is being read, if there is one. -/
  | pause
  /-- It is not looked at. -/
  | remark
  | opens (name : String)
  | assigns (key : String) (first : List Char)
  | continues (text : List Char)

/-- The role that a line plays when a value may be continued, or may not. -/
inductive Plays (pending : Bool) (raw : List Char) : Role → Prop
  | pause (h : IsBlankLine raw) : Plays pending raw .pause
  | remark (h : IsCommentLine raw) : Plays pending raw .remark
  | continues (hpending : pending = true) (hindented : IsIndented raw)
      (h : Continues (Text.trim raw)) : Plays pending raw (.continues (Text.trim raw))
  | opens {inner : List Char} (hbody : Text.trim raw = headerLine inner)
      (hname : Text.trim inner ≠ [])
      (hfree : pending = true → IsIndented raw → ¬Continues (Text.trim raw)) :
      Plays pending raw (.opens (String.ofList (Text.trim inner)))
  | assigns {before after first : List Char} {separator : Char}
      (hbody : Text.trim raw = before ++ separator :: after)
      (hseparator : separator = '=' ∨ separator = ':') (hkey : IsKey (Text.trim before))
      (hfirst : Unquotes (Text.trim after) first)
      (hfree : IsIndented raw → ∀ c ∈ Text.trim before, Text.isBlank c = false) :
      Plays pending raw (.assigns (String.ofList (Text.trim before)) first)

namespace Role

/-- What a line that makes a statement is for. -/
def ofStatement : Statement → Role
  | .header name => opens name
  | .assignment key first => assigns key first

/-- Whether a value may be continued after a line. -/
def pendingAfter (pending : Bool) : Role → Bool
  | pause => false
  | remark => pending
  | opens _ => false
  | assigns _ _ => true
  | continues _ => true

/-- The lines that continue a value from here on. -/
def continued : List Role → List (List Char)
  | continues text :: rest => text :: continued rest
  | remark :: rest => continued rest
  | _ => []

/-- The items that lines state, of which the first stands in a section, if any is open. -/
def told : Option String → List Role → List Item
  | _, [] => []
  | opened, pause :: rest => told opened rest
  | opened, remark :: rest => told opened rest
  | _, opens name :: rest => .header name :: told (some name) rest
  | opened, assigns key first :: rest =>
    (opened.toList.map fun name =>
      .assignment name key (String.ofList (['\n'].intercalate (first :: continued rest)))) ++
      told opened rest
  | opened, continues _ :: rest => told opened rest

end Role

/-- The lines of a file with their roles. -/
inductive Account : Bool → List (List Char) → List Role → Prop
  | nil {pending : Bool} : Account pending [] []
  | cons {pending : Bool} {raw : List Char} {rest : List (List Char)} {role : Role}
      {roles : List Role} (hrole : Plays pending raw role)
      (hrest : Account (role.pendingAfter pending) rest roles) :
      Account pending (raw :: rest) (role :: roles)

namespace Statement

variable {text : List Char}

theorem map_ofStatement_eq_some_iff {role : Role} :
    (ofBody text).toOption.map Role.ofStatement = some role ↔
      (∃ name, ofBody text = .ok (.header name) ∧ role = .opens name) ∨
        ∃ key first, ofBody text = .ok (.assignment key first) ∧ role = .assigns key first := by
  cases hbody : ofBody text with
  | error reason => simp [Except.toOption]
  | ok statement =>
    cases statement with
    | header name => simp [Except.toOption, Role.ofStatement, eq_comm]
    | assignment key first =>
      simp only [Except.toOption, Option.map_some, Option.some.injEq, Except.ok.injEq,
        Statement.assignment.injEq, reduceCtorEq, false_and, exists_false, false_or,
        Role.ofStatement]
      constructor
      · rintro rfl
        exact ⟨key, first, ⟨rfl, rfl⟩, rfl⟩
      · rintro ⟨key', first', ⟨rfl, rfl⟩, rfl⟩
        rfl

end Statement

/-- The role of a line, if it plays one. -/
def Line.role? (pending : Bool) : Line → Option Role
  | blank => some .pause
  | comment => some .remark
  | body indented text =>
    if indented && !Statement.isAssignment text then
      if pending then some (.continues text)
      else if text.head? = some '[' then (Statement.ofBody text).toOption.map Role.ofStatement
      else none
    else (Statement.ofBody text).toOption.map Role.ofStatement

section Plays

variable {pending : Bool} {raw : List Char} {role : Role}

theorem exists_ofText_body (hne : Text.trim raw ≠ [])
    (hhead : ∀ c, (Text.trim raw).head? = some c → c ≠ '#' ∧ c ≠ ';') :
    ∃ indented, Line.ofText raw = .body indented (Text.trim raw) ∧
      (indented = true ↔ IsIndented raw) := by
  have hblank : ¬IsBlankLine raw := fun h => hne (Text.trim_eq_nil_iff.2 h)
  have hcomment : ¬IsCommentLine raw := by
    rw [isCommentLine_iff_head_trim]
    rintro ⟨c, hc, hmark⟩
    exact hmark.elim (hhead c hc).1 (hhead c hc).2
  by_cases hindented : IsIndented raw
  · exact ⟨true, Line.ofText_eq_body_iff.2 ⟨hblank, hcomment, rfl, iff_of_true rfl hindented⟩,
      iff_of_true rfl hindented⟩
  · exact ⟨false, Line.ofText_eq_body_iff.2
      ⟨hblank, hcomment, rfl, iff_of_false Bool.false_ne_true hindented⟩,
      iff_of_false Bool.false_ne_true hindented⟩

theorem plays_of_ofBody {indented : Bool} (hraw : '\n' ∉ raw)
    (hline : Line.ofText raw = .body indented (Text.trim raw))
    (hpending : pending = true → IsIndented raw → Statement.isAssignment (Text.trim raw) = true)
    (hindented : IsIndented raw → Statement.isAssignment (Text.trim raw) = true ∨
      (Text.trim raw).head? = some '[')
    (h : (Statement.ofBody (Text.trim raw)).toOption.map Role.ofStatement = some role) :
    Plays pending raw role := by
  obtain ⟨hname, hhead⟩ := Line.isName_of_ofText hraw hline
  rcases Statement.map_ofStatement_eq_some_iff.1 h with
    ⟨name, hbody, rfl⟩ | ⟨key, first, hbody, rfl⟩
  · obtain ⟨inner, hinner, hne, rfl⟩ := Statement.ofBody_eq_header_iff.1 hbody
    refine .opens hinner hne fun htrue hblank hcontinues => ?_
    have hassigns := hpending htrue hblank
    rw [(Line.continues_iff hraw hline).1 hcontinues] at hassigns
    cases hassigns
  · obtain ⟨before, separator, after, htext, hseparator, hkey, rfl, hfirst⟩ :=
      (Statement.ofBody_eq_assignment_iff hname hhead).1 hbody
    refine .assigns htext hseparator hkey hfirst fun hblank => ?_
    refine (Statement.isAssignment_iff_of_isKey htext hseparator hkey).1 ?_
    refine (hindented hblank).resolve_right fun hbracket => ?_
    rw [← Statement.head_trim_before htext hname.trimmed hkey.ne_nil] at hbracket
    exact (hkey.head '[' hbracket).1 rfl

theorem plays_of_role? (hraw : '\n' ∉ raw) (h : (Line.ofText raw).role? pending = some role) :
    Plays pending raw role := by
  cases hline : Line.ofText raw with
  | blank =>
    rw [hline] at h
    cases h
    exact .pause (Line.ofText_eq_blank_iff.1 hline)
  | comment =>
    rw [hline] at h
    cases h
    exact .remark (Line.ofText_eq_comment_iff.1 hline)
  | body indented text =>
    have hcontinues := Line.continues_iff hraw hline
    obtain ⟨-, -, rfl, hindented⟩ := Line.ofText_eq_body_iff.1 hline
    rw [hline, Line.role?] at h
    split at h
    · next hprose =>
      rw [Bool.and_eq_true, Bool.not_eq_true'] at hprose
      split at h
      · next hpending =>
        cases h
        exact .continues hpending (hindented.1 hprose.1) (hcontinues.2 hprose.2)
      · next hpending =>
        split at h
        · next hbracket =>
          exact plays_of_ofBody hraw hline (fun htrue => absurd htrue hpending)
            (fun _ => .inr hbracket) h
        · cases h
    · next hprose =>
      have hassigns : IsIndented raw → Statement.isAssignment (Text.trim raw) = true := by
        intro hblank
        simpa [hindented.2 hblank] using hprose
      exact plays_of_ofBody hraw hline (fun _ => hassigns) (fun hblank => .inl (hassigns hblank)) h

theorem role?_of_plays (hraw : '\n' ∉ raw) (h : Plays pending raw role) :
    (Line.ofText raw).role? pending = some role := by
  cases h with
  | pause h =>
    rw [Line.ofText_eq_blank_iff.2 h]
    rfl
  | remark h =>
    rw [Line.ofText_eq_comment_iff.2 h]
    rfl
  | continues hpending hindented h =>
    obtain ⟨indented, hline, hiff⟩ := exists_ofText_body h.ne_nil h.head
    rw [hline, Line.role?, hiff.2 hindented, (Line.continues_iff hraw hline).1 h, hpending]
    rfl
  | @opens inner hbody hname hfree =>
    have hne : Text.trim raw ≠ [] := by rw [hbody]; exact List.cons_ne_nil _ _
    have hbracket : (Text.trim raw).head? = some '[' := by rw [hbody]; rfl
    have hhead : ∀ c, (Text.trim raw).head? = some c → c ≠ '#' ∧ c ≠ ';' := by
      rw [hbracket]
      rintro c ⟨⟩
      decide
    obtain ⟨indented, hline, hindented⟩ := exists_ofText_body hne hhead
    have hstatement := Statement.map_ofStatement_eq_some_iff.2
      (.inl ⟨_, Statement.ofBody_eq_header_iff.2 ⟨inner, hbody, hname, rfl⟩, rfl⟩)
    rw [hline, Line.role?, if_pos hbracket, hstatement]
    split
    · next hprose =>
      rw [Bool.and_eq_true, Bool.not_eq_true'] at hprose
      refine if_neg fun hpending => hfree hpending (hindented.1 hprose.1) ?_
      exact (Line.continues_iff hraw hline).2 hprose.2
    · rfl
  | @assigns before after first separator hbody hseparator hkey hfirst hfree =>
    have htrimmed : Text.trim (Text.trim raw) = Text.trim raw := Text.trim_trim raw
    have hbegins := Statement.head_trim_before hbody htrimmed hkey.ne_nil
    have hne : Text.trim raw ≠ [] := by rw [hbody]; simp
    obtain ⟨indented, hline, hindented⟩ := exists_ofText_body hne fun c hc =>
      (hkey.head c (hbegins.trans hc)).2
    obtain ⟨hname, hhead⟩ := Line.isName_of_ofText hraw hline
    have hstatement := Statement.map_ofStatement_eq_some_iff.2
      (.inr ⟨_, _, (Statement.ofBody_eq_assignment_iff hname hhead).2
        ⟨before, separator, after, hbody, hseparator, hkey, rfl, hfirst⟩, rfl⟩)
    have hassigns : ¬(indented && !Statement.isAssignment (Text.trim raw)) = true := by
      rw [Bool.and_eq_true, Bool.not_eq_true']
      rintro ⟨hblank, hprose⟩
      have hnone := (Statement.isAssignment_iff_of_isKey hbody hseparator hkey).2
        (hfree (hindented.1 hblank))
      rw [hprose] at hnone
      cases hnone
    rw [hline, Line.role?, if_neg hassigns, hstatement]

/-- Which role a line plays is told by its characters. -/
theorem plays_iff (hraw : '\n' ∉ raw) :
    Plays pending raw role ↔ (Line.ofText raw).role? pending = some role :=
  ⟨role?_of_plays hraw, plays_of_role? hraw⟩

end Plays

/-- The lines of a file have one account at most. -/
theorem Account.unique {pending : Bool} {lines : List (List Char)} {roles other : List Role}
    (hlines : ∀ line ∈ lines, '\n' ∉ line) (h : Account pending lines roles)
    (hother : Account pending lines other) : other = roles := by
  induction h generalizing other with
  | nil =>
    cases hother
    rfl
  | cons hrole hrest ih =>
    obtain ⟨hraw, hmore⟩ := List.forall_mem_cons.1 hlines
    cases hother with
    | cons hrole' hrest' =>
      have hsame := ((plays_iff hraw).1 hrole').symm.trans ((plays_iff hraw).1 hrole)
      obtain rfl := Option.some.inj hsame
      rw [ih hmore hrest']

namespace Place

/-- Whether a value is being read at a place. -/
def isReading : Place → Bool
  | reading _ _ _ => true
  | _ => false

/-- The item of the value that is being read, once some more lines have continued it. -/
def completed (more : List (List Char)) : Place → List Item
  | reading name key lines =>
    [.assignment name key (String.ofList (['\n'].intercalate (lines ++ more)))]
  | _ => []

end Place

namespace Reader

/-- A reader takes a line that plays a role. -/
inductive Advances (reader : Reader) : Role → Reader → Prop
  | pause : Advances reader .pause reader.settle
  | remark : Advances reader .remark reader
  | opens (name : String) : Advances reader (.opens name)
      { items := reader.settle.items ++ [.header name], place := .inside name }
  | assigns {name : String} (hplace : reader.place.name? = some name) (key : String)
      (first : List Char) : Advances reader (.assigns key first)
      { items := reader.settle.items, place := .reading name key [first] }
  | continues {name key : String} {lines : List (List Char)}
      (hplace : reader.place = .reading name key lines) (text : List Char) :
      Advances reader (.continues text)
        { reader with place := .reading name key (lines ++ [text]) }

variable {reader next last : Reader} {line : Line} {role : Role}

theorem isReading_settle (reader : Reader) : reader.settle.place.isReading = false := by
  obtain ⟨items, place⟩ := reader
  cases place with
  | outside => rfl
  | inside name => rfl
  | reading name key lines => rfl

theorem Advances.isReading (h : reader.Advances role next) :
    next.place.isReading = role.pendingAfter reader.place.isReading := by
  cases h with
  | pause => exact isReading_settle reader
  | remark => rfl
  | opens name => rfl
  | assigns hplace key first => rfl
  | continues hplace text => rfl

theorem exists_role_of_begin {text : List Char} (h : reader.settle.begin text = .ok next) :
    ∃ role, (Statement.ofBody text).toOption.map Role.ofStatement = some role ∧
      reader.Advances role next := by
  rw [begin, name?_settle] at h
  cases hbody : Statement.ofBody text with
  | error reason =>
    rw [hbody] at h
    cases h
  | ok statement =>
    rw [hbody] at h
    cases statement with
    | header name =>
      cases h
      exact ⟨.opens name, rfl, .opens name⟩
    | assignment key first =>
      cases hplace : reader.place.name? with
      | none =>
        simp only [hplace] at h
        cases h
      | some name =>
        simp only [hplace] at h
        cases h
        exact ⟨.assigns key first, rfl, .assigns hplace key first⟩

theorem exists_role_of_step (h : reader.step line = .ok next) :
    ∃ role, line.role? reader.place.isReading = some role ∧ reader.Advances role next := by
  cases line with
  | blank =>
    cases h
    exact ⟨.pause, rfl, .pause⟩
  | comment =>
    cases h
    exact ⟨.remark, rfl, .remark⟩
  | body indented text =>
    rw [step] at h
    rw [Line.role?]
    split at h
    · next hprose =>
      rw [if_pos hprose]
      -- A reader that reads no value is settled already, so a statement is begun as elsewhere.
      have hbegin : reader.settle = reader →
          (if text.head? = some '[' then reader.begin text else .error .strayContinuation) =
            .ok next →
          ∃ role, (if text.head? = some '[' then
              (Statement.ofBody text).toOption.map Role.ofStatement else none) = some role ∧
            reader.Advances role next := by
        intro hsettled hnext
        split at hnext
        · next hbracket =>
          rw [← hsettled] at hnext
          rw [if_pos hbracket]
          exact exists_role_of_begin hnext
        · cases hnext
      rw [continueWith] at h
      obtain ⟨items, place⟩ := reader
      cases place with
      | outside => exact hbegin rfl h
      | inside name => exact hbegin rfl h
      | reading name key lines =>
        cases h
        exact ⟨.continues text, rfl, .continues rfl text⟩
    · next hprose =>
      rw [if_neg hprose]
      exact exists_role_of_begin h

theorem items_settle (reader : Reader) :
    reader.settle.items = reader.items ++ reader.place.completed [] := by
  obtain ⟨items, place⟩ := reader
  cases place with
  | outside => exact (List.append_nil _).symm
  | inside name => exact (List.append_nil _).symm
  | reading name key lines =>
    rw [Place.completed, List.append_nil]
    rfl

theorem completed_settle (reader : Reader) (more : List (List Char)) :
    reader.settle.place.completed more = [] := by
  obtain ⟨items, place⟩ := reader
  cases place with
  | outside => rfl
  | inside name => rfl
  | reading name key lines => rfl

/-- What the lines from a place on state: the value that is being read there, completed by them, and
then what they tell themselves. -/
def statedFrom (reader : Reader) (roles : List Role) : List Item :=
  reader.items ++ reader.place.completed (Role.continued roles) ++
    Role.told reader.place.name? roles

theorem Advances.statedFrom_eq (h : reader.Advances role next) (roles : List Role) :
    next.statedFrom roles = reader.statedFrom (role :: roles) := by
  cases h with
  | pause =>
    rw [statedFrom, completed_settle, List.append_nil, items_settle, name?_settle]
    rfl
  | remark => rfl
  | opens name =>
    show reader.settle.items ++ [.header name] ++ [] ++ Role.told (some name) roles = _
    rw [items_settle, List.append_nil, List.append_assoc]
    rfl
  | assigns hplace key first =>
    rw [statedFrom, statedFrom, Role.told, hplace, items_settle, ← List.append_assoc]
    rfl
  | @continues name key lines hplace text =>
    rw [statedFrom, statedFrom, hplace, Place.completed, Place.completed, List.append_assoc lines]
    rfl

theorem Advances.name?_ne_none (h : reader.Advances role next) (hnext : next.place.name? ≠ none) :
    reader.place.name? ≠ none ∨ ∃ name, role = .opens name := by
  cases h with
  | pause =>
    rw [name?_settle] at hnext
    exact .inl hnext
  | remark => exact .inl hnext
  | opens name => exact .inr ⟨name, rfl⟩
  | assigns hplace key first =>
    rw [hplace]
    exact .inl (Option.some_ne_none _)
  | continues hplace text =>
    rw [hplace]
    exact .inl (Option.some_ne_none _)

/-- The lines that a reader takes have an account, and the items at the end are those that it had
before and those that the lines state. Each assignment stands in a section. -/
theorem told_of_takes {lines : List (List Char)} (hlines : ∀ line ∈ lines, '\n' ∉ line)
    (h : reader.Takes lines last) :
    ∃ roles, Account reader.place.isReading lines roles ∧
      last.settle.items = reader.statedFrom roles ∧
      ∀ front key first back, roles = front ++ .assigns key first :: back →
        reader.place.name? ≠ none ∨ ∃ name, .opens name ∈ front := by
  induction h with
  | @nil reader =>
    refine ⟨[], .nil, ?_, fun front key first back hroles => ?_⟩
    · rw [items_settle]
      exact (List.append_nil _).symm
    · exact absurd hroles.symm (List.append_ne_nil_of_right_ne_nil front (List.cons_ne_nil _ _))
  | @cons reader middle next raw rest hstep hrest ih =>
    obtain ⟨hraw, hmore⟩ := List.forall_mem_cons.1 hlines
    obtain ⟨roles, haccount, hitems, hheaded⟩ := ih hmore
    obtain ⟨role, hrole, hadvances⟩ := exists_role_of_step hstep
    rw [hadvances.isReading] at haccount
    refine ⟨role :: roles, .cons (plays_of_role? hraw hrole) haccount, ?_, ?_⟩
    · rw [hitems, hadvances.statedFrom_eq]
    · intro front key first back hroles
      -- An assignment in front stands where the reader is; one further on, where the line has
      -- led, and only a header leads into a section.
      cases front with
      | nil =>
        cases hroles
        cases hadvances with
        | assigns hplace =>
          rw [hplace]
          exact .inl (Option.some_ne_none _)
      | cons before more =>
        obtain ⟨rfl, hrest⟩ := List.cons.inj hroles
        rcases hheaded more key first back hrest with hname | ⟨name, hname⟩
        · rcases hadvances.name?_ne_none hname with hopened | ⟨name, rfl⟩
          · exact .inl hopened
          · exact .inr ⟨name, List.mem_cons_self⟩
        · exact .inr ⟨name, List.mem_cons_of_mem _ hname⟩

end Reader

namespace Role

variable {opened : Option String} {roles : List Role}

theorem opens_of_mem_told {item : Item} (h : item ∈ told opened roles) :
    opened = some item.name ∨ .opens item.name ∈ roles := by
  induction roles generalizing opened with
  | nil => cases h
  | cons role rest ih =>
    have hrest : ∀ {opened : Option String}, item ∈ told opened rest →
        opened = some item.name ∨ .opens item.name ∈ role :: rest :=
      fun hmem => (ih hmem).imp_right (List.mem_cons_of_mem role)
    cases role with
    | pause => exact hrest h
    | remark => exact hrest h
    | continues text => exact hrest h
    | opens name =>
      rcases List.mem_cons.1 h with rfl | hmem
      · exact .inr List.mem_cons_self
      · rcases hrest hmem with hname | hname
        · rw [Option.some.inj hname]
          exact .inr List.mem_cons_self
        · exact .inr hname
    | assigns key first =>
      rw [told, List.mem_append, List.mem_map] at h
      rcases h with ⟨name, hname, rfl⟩ | hmem
      · exact .inl (Option.mem_toList.1 hname)
      · exact hrest hmem

theorem header_mem_told {name : String} (h : .opens name ∈ roles) :
    .header name ∈ told opened roles := by
  induction roles generalizing opened with
  | nil => cases h
  | cons role rest ih =>
    rcases List.mem_cons.1 h with rfl | hrest
    · exact List.mem_cons_self
    · cases role with
      | pause => exact ih hrest
      | remark => exact ih hrest
      | continues text => exact ih hrest
      | opens other => exact List.mem_cons_of_mem _ (ih hrest)
      | assigns key first => exact List.mem_append_right _ (ih hrest)

end Role

/-- Sections hold what lines with these roles tell. -/
structure Sections.ToldBy (sections : Sections) (roles : List Role) : Prop where
  name : ∀ name, name ∈ sections.keys ↔ .opens name ∈ roles
  /-- A key has the values of the lines that assign it in the section, in file order. -/
  values : ∀ name key,
    sections.find? name key = someValues (valuesUnder (· = name) key (Role.told none roles))
  nonempty : ∀ name key values, sections.find? name key = some values → values ≠ []
  /-- No line assigns outside all sections, so what it assigns is told. -/
  headed : ∀ front key first back, roles = front ++ .assigns key first :: back →
    ∃ name, .opens name ∈ front

namespace Source

/-- The lines of an accepted file have one account, and its sections are told by it: they are those
that some line opens, and hold one value for every line that assigns, which is what this line
begins and the lines after it continue. -/
theorem lines_accounted_for {path content : String} {source : Source}
    (h : read path content = .ok source) :
    ∃ roles, Account false (Text.lines content.toList) roles ∧
      (∀ other, Account false (Text.lines content.toList) other → other = roles) ∧
      source.sections.ToldBy roles := by
  obtain ⟨items, hitems, rfl⟩ := exists_items_of_read h
  obtain ⟨last, htakes, rfl⟩ := exists_takes_of_readItems hitems
  have hlines := Text.newline_not_mem_lines content.toList
  obtain ⟨roles, haccount, htold, hheaded⟩ := Reader.told_of_takes hlines htakes
  have hitems : last.settle.items = Role.told none roles := htold
  refine ⟨roles, haccount, fun other => haccount.unique hlines, ?_, ?_, ?_, ?_⟩
  · intro name
    rw [hitems]
    refine Sections.mem_keys_ofItems.trans ⟨?_, fun hname => ?_⟩
    · rintro ⟨item, hitem, rfl⟩
      exact (Role.opens_of_mem_told hitem).resolve_left nofun
    · exact ⟨.header name, Role.header_mem_told hname, rfl⟩
  · intro name key
    rw [hitems]
    exact Sections.find?_ofItems _ name key
  · intro name key values hvalues
    have hsome := (Sections.find?_ofItems _ name key).symm.trans hvalues
    obtain ⟨hne, hvalues⟩ := Option.ite_none_left_eq_some.1 hsome
    rwa [← Option.some.inj hvalues]
  · intro front key first back hroles
    exact (hheaded front key first back hroles).resolve_left fun hnone => hnone rfl

/-- A comment inside a value, a section that is opened twice, and a value that the file ends in. -/
theorem lines_accounted_for_reopened :
    ∃ source roles, read "a.conf" "[s]\na = 'x'\n# note\n  y\n[t]\n[ s ]\na: z" = .ok source ∧
      Account false (Text.lines "[s]\na = 'x'\n# note\n  y\n[t]\n[ s ]\na: z".toList) roles ∧
      source.sections.ToldBy roles ∧
      source.sections.find? "s" "a" = some ["x\ny", "z"] ∧ .opens "t" ∈ roles := by
  have hread : read "a.conf" "[s]\na = 'x'\n# note\n  y\n[t]\n[ s ]\na: z" =
      .ok (ofItems "a.conf" [.header "s", .assignment "s" "a" "x\ny", .header "t", .header "s",
        .assignment "s" "a" "z"]) := rfl
  obtain ⟨roles, haccount, -, htold⟩ := lines_accounted_for hread
  exact ⟨_, roles, hread, haccount, htold, rfl, (htold.name "t").1 (by decide)⟩

end Source

end LayeredConfig
