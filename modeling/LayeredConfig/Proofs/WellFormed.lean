import LayeredConfig.Proofs.Assignments
import LayeredConfig.Proofs.Trimming

/-!
# Well-formed sections

What a file can hold: names and keys that survive trimming, and values whose
lines after the first would continue a value when they are indented. The
conditions speak of characters alone. Each of them is one of the decisions that
a reader takes about a line, so whatever a reader accepts meets them: they are
kept by every line that it takes (`Reader.wellFormed_step`), and a value is
joined from its lines only when it is complete.
-/

namespace LayeredConfig

/-- A name stands on a line without blanks around it. -/
structure IsName (text : List Char) : Prop where
  ne_nil : text ≠ []
  trimmed : Text.trim text = text
  newline : '\n' ∉ text

/-- A key is no header, no comment, and ends before the first separator. -/
structure IsKey (text : List Char) : Prop extends IsName text where
  equals : '=' ∉ text
  colon : ':' ∉ text
  head : ∀ c, text.head? = some c → c ≠ '[' ∧ c ≠ '#' ∧ c ≠ ';'

/-- A line continues a value if it is no comment and what stands before its first separator is no
key. -/
structure Continues (line : List Char) : Prop extends IsName line where
  head : ∀ c, line.head? = some c → c ≠ '#' ∧ c ≠ ';'
  key : ∀ before c after, line = before ++ c :: after → c = '=' ∨ c = ':' →
    '=' ∉ before → ':' ∉ before →
      Text.trim before = [] ∨ ∃ d ∈ Text.trim before, Text.isBlank d = true

/-- Every line of a value after the first continues it. -/
def IsValue (value : List Char) : Prop :=
  ∀ line ∈ (Text.cut '\n' value).tail, Continues line

/-- A table of sections that a file can hold. -/
structure Sections.WellFormed (sections : Sections) : Prop where
  name : ∀ name members, sections.get? name = some members → IsName name.toList
  key : ∀ name key values, sections.find? name key = some values → IsKey key.toList
  nonempty : ∀ name key values, sections.find? name key = some values → values ≠ []
  value : ∀ name key values, sections.find? name key = some values →
    ∀ value ∈ values, IsValue value.toList

namespace Statement

theorem isSeparator_iff {c : Char} : isSeparator c = true ↔ c = '=' ∨ c = ':' := by
  simp [isSeparator]

theorem forall_not_isSeparator_iff {text : List Char} :
    (∀ c ∈ text, ¬isSeparator c = true) ↔ '=' ∉ text ∧ ':' ∉ text := by
  constructor
  · intro h
    exact ⟨fun hmem => h '=' hmem rfl, fun hmem => h ':' hmem rfl⟩
  · rintro ⟨hequals, hcolon⟩ c hc hseparator
    rcases isSeparator_iff.1 hseparator with rfl | rfl
    · exact hequals hc
    · exact hcolon hc

theorem isAssignment_eq_false_iff {line : List Char} :
    isAssignment line = false ↔
      ∀ before c after, line = before ++ c :: after → c = '=' ∨ c = ':' →
        '=' ∉ before → ':' ∉ before →
          Text.trim before = [] ∨ ∃ d ∈ Text.trim before, Text.isBlank d = true := by
  have hkey : ∀ before : List Char,
      (Text.trim before ≠ [] && !(Text.trim before).any Text.isBlank) = false ↔
        Text.trim before = [] ∨ ∃ d ∈ Text.trim before, Text.isBlank d = true := by
    intro before
    by_cases hnil : Text.trim before = []
    · simp [hnil]
    · simp [hnil]
  rw [isAssignment]
  constructor
  · intro h before c after hline hseparator hequals hcolon
    have hcut : Text.cutFirst isSeparator line = some (before, after) := by
      rw [hline]
      exact Text.cutFirst_append (forall_not_isSeparator_iff.2 ⟨hequals, hcolon⟩)
        (isSeparator_iff.2 hseparator) after
    rw [hcut] at h
    exact (hkey before).1 h
  · intro h
    cases hcut : Text.cutFirst isSeparator line with
    | none => rfl
    | some halves =>
      obtain ⟨before, after⟩ := halves
      obtain ⟨c, hc, hline, hbefore⟩ := Text.cutFirst_eq_some hcut
      obtain ⟨hequals, hcolon⟩ := forall_not_isSeparator_iff.1 hbefore
      exact (hkey before).2 (h before c after hline (isSeparator_iff.1 hc) hequals hcolon)

/-- The statements that a body can make. -/
inductive WellFormed : Statement → Prop
  | header {name : String} (hname : IsName name.toList) : WellFormed (.header name)
  | assignment {key : String} {value : List Char} (hkey : IsKey key.toList)
      (hvalue : '\n' ∉ value) : WellFormed (.assignment key value)

theorem isName_trim {text : List Char} (hne : Text.trim text ≠ []) (hline : '\n' ∉ text) :
    IsName (String.ofList (Text.trim text)).toList := by
  rw [String.toList_ofList]
  exact ⟨hne, Text.trim_trim text, fun hmem => hline (Text.mem_of_mem_trim hmem)⟩

theorem mem_of_mem_unquote {text : List Char} {c : Char} (h : c ∈ unquote text) : c ∈ text := by
  cases text with
  | nil => exact h
  | cons quote rest =>
    rw [unquote] at h
    split at h
    · exact List.mem_cons_of_mem _ (List.dropLast_subset rest h)
    · exact h

theorem header?_eq_ok_iff {rest : List Char} {statement : Statement} :
    header? rest = .ok statement ↔ ∃ inner, rest = inner ++ [']'] ∧ Text.trim inner ≠ [] ∧
      statement = .header (String.ofList (Text.trim inner)) := by
  constructor
  · intro h
    rw [header?] at h
    split at h
    · next hlast =>
      obtain ⟨inner, rfl⟩ := List.getLast?_eq_some_iff.1 hlast
      rw [List.dropLast_concat] at h
      by_cases hname : Text.trim inner = []
      · simp only [if_pos hname] at h
        cases h
      · simp only [if_neg hname] at h
        cases h
        exact ⟨inner, rfl, hname, rfl⟩
    · cases h
  · rintro ⟨inner, rfl, hname, rfl⟩
    rw [header?, if_pos List.getLast?_concat, List.dropLast_concat]
    simp only [if_neg hname]

theorem assignment?_eq_ok_iff {text : List Char} {statement : Statement} :
    assignment? text = .ok statement ↔ ∃ before after,
      Text.cutFirst isSeparator text = some (before, after) ∧ Text.trim before ≠ [] ∧
        statement =
          .assignment (String.ofList (Text.trim before)) (unquote (Text.trim after)) := by
  constructor
  · intro h
    rw [assignment?] at h
    split at h
    · cases h
    · next before after hcut =>
      by_cases hkey : Text.trim before = []
      · simp only [if_pos hkey] at h
        cases h
      · simp only [if_neg hkey] at h
        cases h
        exact ⟨before, after, hcut, hkey, rfl⟩
  · rintro ⟨before, after, hcut, hkey, rfl⟩
    rw [assignment?, hcut]
    simp only [if_neg hkey]

theorem wellFormed_header {rest : List Char} (hline : '\n' ∉ rest) {statement : Statement}
    (h : header? rest = .ok statement) : statement.WellFormed := by
  obtain ⟨inner, rfl, hne, rfl⟩ := header?_eq_ok_iff.1 h
  exact .header (isName_trim hne fun hmem => hline (List.mem_append_left _ hmem))

theorem head_trim_before {before after text : List Char} {c : Char}
    (htext : text = before ++ c :: after) (htrimmed : Text.trim text = text)
    (hne : Text.trim before ≠ []) : (Text.trim before).head? = text.head? := by
  obtain ⟨hhead, -⟩ := Text.trim_eq_self_iff.1 htrimmed
  cases before with
  | nil => exact absurd rfl hne
  | cons d more =>
    have hfirst : text.head? = some d := by rw [htext]; rfl
    rw [hfirst]
    exact Text.head?_trim rfl (hhead d hfirst)

theorem wellFormed_assignment {text : List Char} (hname : IsName text)
    (hhead : ∀ c, text.head? = some c → c ≠ '[' ∧ c ≠ '#' ∧ c ≠ ';') {statement : Statement}
    (h : assignment? text = .ok statement) : statement.WellFormed := by
  obtain ⟨before, after, hcut, hne, rfl⟩ := assignment?_eq_ok_iff.1 h
  obtain ⟨c, -, htext, hbefore⟩ := Text.cutFirst_eq_some hcut
  obtain ⟨hequals, hcolon⟩ := forall_not_isSeparator_iff.1 hbefore
  have hsubset : ∀ d ∈ before, d ∈ text := fun d hd => by
    rw [htext]
    exact List.mem_append_left _ hd
  refine .assignment ⟨isName_trim hne fun hmem => hname.newline (hsubset _ hmem), ?_, ?_, ?_⟩
    fun hmem => hname.newline ?_
  · rw [String.toList_ofList]
    exact fun hmem => hequals (Text.mem_of_mem_trim hmem)
  · rw [String.toList_ofList]
    exact fun hmem => hcolon (Text.mem_of_mem_trim hmem)
  · rw [String.toList_ofList, head_trim_before htext hname.trimmed hne]
    exact hhead
  · rw [htext]
    exact List.mem_append_right _
      (List.mem_cons_of_mem c (Text.mem_of_mem_trim (mem_of_mem_unquote hmem)))

theorem ofBody_of_head_ne {text : List Char} (hhead : text.head? ≠ some '[') :
    ofBody text = assignment? text := by
  rw [ofBody.eq_def]
  split
  · exact absurd rfl hhead
  · rfl

theorem wellFormed_ofBody {text : List Char} (hname : IsName text)
    (hhead : ∀ c, text.head? = some c → c ≠ '#' ∧ c ≠ ';') {statement : Statement}
    (h : ofBody text = .ok statement) : statement.WellFormed := by
  by_cases hbracket : text.head? = some '['
  · obtain ⟨rest, rfl⟩ := List.head?_eq_some_iff.1 hbracket
    exact wellFormed_header (fun hmem => hname.newline (List.mem_cons_of_mem _ hmem)) h
  · rw [ofBody_of_head_ne hbracket] at h
    refine wellFormed_assignment hname (fun c hc => ⟨?_, hhead c hc⟩) h
    rintro rfl
    exact hbracket hc

end Statement

theorem Line.isName_of_ofText {raw text : List Char} {indented : Bool} (hraw : '\n' ∉ raw)
    (h : Line.ofText raw = .body indented text) :
    IsName text ∧ ∀ c, text.head? = some c → c ≠ '#' ∧ c ≠ ';' := by
  rw [Line.ofText] at h
  split at h
  · cases h
  · next c rest htext =>
    split at h
    · cases h
    · next hmark =>
      cases h
      refine ⟨⟨?_, Text.trim_trim raw, fun hmem => hraw (Text.mem_of_mem_trim hmem)⟩, ?_⟩
      · rw [htext]
        exact List.cons_ne_nil c rest
      · intro d hd
        rw [htext] at hd
        cases hd
        simpa [Line.isCommentMark] using hmark

/-- The items that a file can have. -/
inductive Item.WellFormed : Item → Prop
  | header {name : String} (hname : IsName name.toList) : WellFormed (.header name)
  | assignment {name key value : String} (hname : IsName name.toList)
      (hkey : IsKey key.toList) (hvalue : IsValue value.toList) :
      WellFormed (.assignment name key value)

/-- The places where a reader can stand. -/
inductive Place.WellFormed : Place → Prop
  | outside : WellFormed .outside
  | inside {name : String} (hname : IsName name.toList) : WellFormed (.inside name)
  | reading {name key : String} {first : List Char} {rest : List (List Char)}
      (hname : IsName name.toList) (hkey : IsKey key.toList) (hfirst : '\n' ∉ first)
      (hrest : ∀ line ∈ rest, Continues line) : WellFormed (.reading name key (first :: rest))

theorem Place.WellFormed.isName {place : Place} (h : place.WellFormed) {name : String}
    (hname : place.name? = some name) : IsName name.toList := by
  cases h with
  | outside => cases hname
  | inside hinside =>
    cases hname
    exact hinside
  | reading hreading =>
    cases hname
    exact hreading

namespace Reader

structure WellFormed (reader : Reader) : Prop where
  items : ∀ item ∈ reader.items, item.WellFormed
  place : reader.place.WellFormed

variable {reader : Reader}

theorem WellFormed.settle (h : reader.WellFormed) : reader.settle.WellFormed := by
  obtain ⟨items, place⟩ := reader
  obtain ⟨hitems, hplace⟩ := h
  cases hplace with
  | outside => exact ⟨hitems, .outside⟩
  | inside hname => exact ⟨hitems, .inside hname⟩
  | reading hname hkey hfirst hrest =>
    refine ⟨?_, .inside hname⟩
    intro item hitem
    rcases List.mem_append.1 hitem with hold | hnew
    · exact hitems item hold
    · obtain rfl := List.mem_singleton.1 hnew
      refine .assignment hname hkey ?_
      rw [IsValue, String.toList_ofList,
        Text.cut_intercalate hfirst fun line hline => (hrest line hline).newline]
      exact hrest

theorem wellFormed_begin (h : reader.WellFormed) {text : List Char} (hname : IsName text)
    (hhead : ∀ c, text.head? = some c → c ≠ '#' ∧ c ≠ ';') {next : Reader}
    (hbegin : reader.begin text = .ok next) : next.WellFormed := by
  rw [begin] at hbegin
  cases hstatement : Statement.ofBody text with
  | error reason =>
    rw [hstatement] at hbegin
    cases hbegin
  | ok statement =>
    rw [hstatement] at hbegin
    have hformed := Statement.wellFormed_ofBody hname hhead hstatement
    cases hformed with
    | header hheader =>
      cases hbegin
      refine ⟨?_, .inside hheader⟩
      intro item hitem
      rcases List.mem_append.1 hitem with hold | hnew
      · exact h.items item hold
      · obtain rfl := List.mem_singleton.1 hnew
        exact .header hheader
    | assignment hkey hvalue =>
      cases hplace : reader.place.name? with
      | none =>
        simp only [hplace] at hbegin
        cases hbegin
      | some name =>
        simp only [hplace] at hbegin
        cases hbegin
        exact ⟨h.items,
          .reading (h.place.isName hplace) hkey hvalue fun line hline => nomatch hline⟩

theorem wellFormed_continueWith (h : reader.WellFormed) {text : List Char} (hname : IsName text)
    (hhead : ∀ c, text.head? = some c → c ≠ '#' ∧ c ≠ ';')
    (hkey : Statement.isAssignment text = false) {next : Reader}
    (hcontinue : reader.continueWith text = .ok next) : next.WellFormed := by
  have hother : (if text.head? = some '[' then reader.begin text
      else .error .strayContinuation) = .ok next → next.WellFormed := by
    intro hbegin
    split at hbegin
    · exact wellFormed_begin h hname hhead hbegin
    · cases hbegin
  obtain ⟨items, place⟩ := reader
  obtain ⟨hitems, hplace⟩ := h
  cases hplace with
  | outside => exact hother hcontinue
  | inside hinside => exact hother hcontinue
  | reading hreading hassigned hfirst hrest =>
    cases hcontinue
    refine ⟨hitems, .reading hreading hassigned hfirst ?_⟩
    intro line hline
    rcases List.mem_append.1 hline with hold | hnew
    · exact hrest line hold
    · obtain rfl := List.mem_singleton.1 hnew
      exact ⟨hname, hhead, Statement.isAssignment_eq_false_iff.1 hkey⟩

/-- One line keeps everything well formed. -/
theorem wellFormed_step (h : reader.WellFormed) {raw : List Char} (hraw : '\n' ∉ raw)
    {next : Reader} (hstep : reader.step (Line.ofText raw) = .ok next) : next.WellFormed := by
  cases hline : Line.ofText raw with
  | blank =>
    rw [hline] at hstep
    cases hstep
    exact h.settle
  | comment =>
    rw [hline] at hstep
    cases hstep
    exact h
  | body indented text =>
    obtain ⟨hname, hhead⟩ := Line.isName_of_ofText hraw hline
    rw [hline, step] at hstep
    split at hstep
    · next hindented =>
      rw [Bool.and_eq_true, Bool.not_eq_true'] at hindented
      exact wellFormed_continueWith h hname hhead hindented.2 hstep
    · exact wellFormed_begin h.settle hname hhead hstep

theorem wellFormed_run (h : reader.WellFormed) {lines : List (List Char)}
    (hlines : ∀ line ∈ lines, '\n' ∉ line) {number : Nat} {last : Reader}
    (hrun : reader.run number lines = .ok last) : last.WellFormed := by
  induction lines generalizing reader number with
  | nil =>
    cases hrun
    exact h
  | cons raw rest ih =>
    obtain ⟨hraw, hrest⟩ := List.forall_mem_cons.1 hlines
    rw [run] at hrun
    cases hstep : reader.step (Line.ofText raw) with
    | error reason =>
      rw [hstep] at hrun
      cases hrun
    | ok next =>
      rw [hstep] at hrun
      exact ih (wellFormed_step h hraw hstep) hrest hrun

end Reader

/-- The items of a file are well formed, whatever the file. -/
theorem wellFormed_of_readItems {content : String} {items : List Item}
    (h : readItems content = .ok items) : ∀ item ∈ items, item.WellFormed := by
  rw [readItems] at h
  cases hrun : ({} : Reader).run 1 (Text.lines content.toList) with
  | error fault =>
    rw [hrun] at h
    cases h
  | ok last =>
    rw [hrun] at h
    cases h
    have hempty : Reader.WellFormed {} := ⟨List.forall_mem_nil _, .outside⟩
    have hlast := Reader.wellFormed_run hempty (Text.newline_not_mem_lines content.toList) hrun
    exact hlast.settle.items

theorem exists_item_of_mem_valuesUnder {name key value : String} {items : List Item}
    (h : value ∈ valuesUnder (· = name) key items) : .assignment name key value ∈ items := by
  rw [valuesUnder, List.mem_filterMap] at h
  obtain ⟨item, hitem, hvalue⟩ := h
  cases item with
  | header opened => cases hvalue
  | assignment opened k given =>
    rw [Item.valueFor?] at hvalue
    obtain ⟨⟨rfl, rfl⟩, hsome⟩ := Option.ite_none_right_eq_some.1 hvalue
    cases hsome
    exact hitem

theorem Sections.wellFormed_ofItems {items : List Item} (h : ∀ item ∈ items, item.WellFormed) :
    (ofItems items).WellFormed := by
  have hvalues : ∀ name key values, (ofItems items).find? name key = some values →
      values ≠ [] ∧ ∀ value ∈ values, .assignment name key value ∈ items := by
    intro name key values hfind
    rw [find?_ofItems, someValues] at hfind
    obtain ⟨hne, hsome⟩ := Option.ite_none_left_eq_some.1 hfind
    obtain rfl := Option.some.inj hsome
    exact ⟨hne, fun value hvalue => exists_item_of_mem_valuesUnder hvalue⟩
  refine ⟨fun name members hget => ?_, fun name key values hfind => ?_,
    fun name key values hfind => (hvalues name key values hfind).1,
    fun name key values hfind value hvalue => ?_⟩
  · have hsome : ((ofItems items).get? name).isSome = true := by rw [hget]; rfl
    obtain ⟨item, hitem, rfl⟩ := (isSome_get?_ofItems items name).1 hsome
    cases h item hitem with
    | header hname => exact hname
    | assignment hname hkey hvalue => exact hname
  · obtain ⟨hne, hitems⟩ := hvalues name key values hfind
    obtain ⟨value, hvalue⟩ := List.exists_mem_of_ne_nil values hne
    cases h _ (hitems value hvalue) with
    | assignment hname hkey hformed => exact hkey
  · cases h _ ((hvalues name key values hfind).2 value hvalue) with
    | assignment hname hkey hformed => exact hformed

end LayeredConfig
