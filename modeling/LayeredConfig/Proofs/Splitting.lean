import LayeredConfig.Proofs.Precedence
import LayeredConfig.Proofs.Written

/-!
# Splitting a file

Two files that are accepted can be put together with a blank line between them,
and the whole states what the first states and then what the second states. A
reader that has been through the first file stands in its last section when the
second begins, and not before the first header. It takes the same steps all the
same (`Reader.Follows.step`): the second file on its own could assign nothing
before a header of its own, and the blank line has settled what was being read.

So it does not matter for an option that has one name only whether its
assignments stand in one file or in two that follow each other in priority. A
single option reads the last assignment of either list. An option that collects
reads both lists, one after the other.
-/

namespace LayeredConfig

namespace Reader

/-- A reader does what another one does after some items. The other may stand before its first
header where this one stands in a section that those items left open. -/
structure Follows (earlier : List Item) (reader later : Reader) : Prop where
  items : later.items = earlier ++ reader.items
  place : later.place = reader.place ∨
    (reader.place = .outside ∧ ∃ name, later.place = .inside name)

variable {earlier : List Item} {reader later next : Reader}

theorem Follows.settle (h : Follows earlier reader later) :
    Follows earlier reader.settle later.settle := by
  obtain ⟨items, place⟩ := reader
  obtain ⟨laterItems, laterPlace⟩ := later
  have hitems : laterItems = earlier ++ items := h.items
  subst hitems
  rcases h.place with hsame | ⟨houtside, name, hinside⟩
  · cases hsame
    cases place with
    | outside => exact ⟨rfl, .inl rfl⟩
    | inside name => exact ⟨rfl, .inl rfl⟩
    | reading name key lines => exact ⟨List.append_assoc _ _ _, .inl rfl⟩
  · cases houtside
    cases hinside
    exact ⟨rfl, .inr ⟨rfl, name, rfl⟩⟩

theorem Follows.begin (h : Follows earlier reader later) {text : List Char}
    (hbegin : reader.begin text = .ok next) :
    ∃ next', later.begin text = .ok next' ∧ Follows earlier next next' := by
  rw [Reader.begin] at hbegin
  rw [Reader.begin]
  cases hstatement : Statement.ofBody text with
  | error reason =>
    rw [hstatement] at hbegin
    cases hbegin
  | ok statement =>
    rw [hstatement] at hbegin
    cases statement with
    | header name =>
      cases hbegin
      refine ⟨_, rfl, ?_, .inl rfl⟩
      rw [h.items, List.append_assoc]
    | assignment key value =>
      cases hname : reader.place.name? with
      | none =>
        simp only [hname] at hbegin
        cases hbegin
      | some name =>
        -- Only outside all sections may the two stand apart, and no assignment is taken there.
        have hplace : later.place = reader.place := by
          rcases h.place with hsame | ⟨houtside, -⟩
          · exact hsame
          · rw [houtside] at hname
            cases hname
        simp only [hname] at hbegin
        cases hbegin
        simp only [hplace, hname]
        exact ⟨_, rfl, h.items, .inl rfl⟩

theorem Follows.continueWith (h : Follows earlier reader later) {text : List Char}
    (hcontinue : reader.continueWith text = .ok next) :
    ∃ next', later.continueWith text = .ok next' ∧ Follows earlier next next' := by
  have hother : (if text.head? = some '[' then reader.begin text
      else .error .strayContinuation) = .ok next →
      ∃ next', (if text.head? = some '[' then later.begin text
        else .error .strayContinuation) = .ok next' ∧ Follows earlier next next' := by
    intro hbegin
    split at hbegin
    · next hbracket =>
      rw [if_pos hbracket]
      exact h.begin hbegin
    · cases hbegin
  obtain ⟨items, place⟩ := reader
  obtain ⟨laterItems, laterPlace⟩ := later
  have hitems := h.items
  rcases h.place with hsame | ⟨houtside, name, hinside⟩
  · cases hsame
    cases place with
    | outside => exact hother hcontinue
    | inside name => exact hother hcontinue
    | reading name key lines =>
      cases hcontinue
      exact ⟨_, rfl, hitems, .inl rfl⟩
  · cases houtside
    cases hinside
    exact hother hcontinue

/-- Whatever line the one takes, the other takes it too and goes on in the same way. -/
theorem Follows.step (h : Follows earlier reader later) {line : Line}
    (hstep : reader.step line = .ok next) :
    ∃ next', later.step line = .ok next' ∧ Follows earlier next next' := by
  cases line with
  | blank =>
    cases hstep
    exact ⟨_, rfl, h.settle⟩
  | comment =>
    cases hstep
    exact ⟨_, rfl, h⟩
  | body indented text =>
    rw [Reader.step] at hstep ⊢
    split at hstep
    · next hindented =>
      rw [if_pos hindented]
      exact h.continueWith hstep
    · next hindented =>
      rw [if_neg hindented]
      exact h.settle.begin hstep

theorem Follows.takes {lines : List (List Char)} (htakes : reader.Takes lines next)
    (h : Follows earlier reader later) :
    ∃ next', later.Takes lines next' ∧ Follows earlier next next' := by
  induction htakes generalizing later with
  | nil => exact ⟨later, .nil, h⟩
  | cons hstep hrest ih =>
    obtain ⟨middle', hmiddle, hfollows⟩ := h.step hstep
    obtain ⟨next', hnext, hlast⟩ := ih hfollows
    exact ⟨next', .cons hmiddle hnext, hlast⟩

theorem place_settle (reader : Reader) :
    reader.settle.place = .outside ∨ ∃ name, reader.settle.place = .inside name := by
  obtain ⟨items, place⟩ := reader
  cases place with
  | outside => exact .inl rfl
  | inside name => exact .inr ⟨name, rfl⟩
  | reading name key lines => exact .inr ⟨name, rfl⟩

theorem follows_settle (reader : Reader) : Follows reader.settle.items {} reader.settle where
  items := (List.append_nil _).symm
  place := by
    rcases place_settle reader with houtside | ⟨name, hinside⟩
    · exact .inl houtside
    · exact .inr ⟨rfl, name, hinside⟩

theorem takes_blank_line {text : List Char} (h : ({} : Reader).Takes (Text.lines text) reader) :
    ({} : Reader).Takes (Text.lines (text ++ ['\n']) ++ [[]]) reader.settle := by
  rcases Text.lines_concat_newline text with hlines | hlines
  · rw [hlines]
    exact h.append (.cons rfl .nil)
  · rw [hlines]
    refine (h.append (.cons rfl .nil)).append (.cons ?_ .nil)
    show Except.ok reader.settle.settle = _
    rw [settle_settle]

end Reader

/-- Two files with a blank line between them state what the one and then the other states. -/
theorem readItems_append {first second : String} {items more : List Item}
    (hfirst : readItems first = .ok items) (hsecond : readItems second = .ok more) :
    readItems (first ++ "\n\n" ++ second) = .ok (items ++ more) := by
  obtain ⟨middle, hmiddle, rfl⟩ := exists_takes_of_readItems hfirst
  obtain ⟨last, hlast, rfl⟩ := exists_takes_of_readItems hsecond
  obtain ⟨last', hlast', hfollows⟩ := (Reader.follows_settle middle).takes hlast
  have hlines : Text.lines (first ++ "\n\n" ++ second).toList =
      (Text.lines (first.toList ++ ['\n']) ++ [[]]) ++ Text.lines second.toList := by
    have hnewlines : "\n\n".toList = ['\n', '\n'] := rfl
    rw [String.toList_append, String.toList_append, hnewlines, List.append_assoc,
      List.cons_append, Text.lines_append_newline_append, List.append_assoc]
    rfl
  have htakes := (Reader.takes_blank_line hmiddle).append hlast'
  rw [← hlines] at htakes
  rw [readItems, htakes.run 1]
  exact congrArg Except.ok hfollows.settle.items

namespace Sections

/-- Sections hold what two others hold: their names, and under each of them the values of the first
before those of the second. -/
structure Joins (first second joined : Sections) : Prop where
  name : ∀ name, name ∈ joined.keys ↔ name ∈ first.keys ∨ name ∈ second.keys
  values : ∀ name key, joined.find? name key =
    someValues (first.valuesOf name key ++ second.valuesOf name key)

theorem joins_ofItems (items more : List Item) :
    Joins (ofItems items) (ofItems more) (ofItems (items ++ more)) where
  name name := by
    simp only [mem_keys_ofItems, List.mem_append, or_and_right, exists_or]
  values name key := by
    rw [find?_ofItems, valuesOf_ofItems, valuesOf_ofItems, valuesUnder_append]

end Sections

namespace Source

theorem find?_ofItems_singleton (path : String) (items : List Item) (name key : String) :
    (ofItems path items).find? [(normalizeName name, key)] =
      someValues (valuesUnder (SameSection · name) key items) := by
  rw [find?_cons, find?_normalized_ofItems]
  exact Option.or_none

end Source

namespace Layers

variable (lower higher : List Source) {first second joined : Source}
  {name key : String} {values more : List String}

theorem last_lookup_split
    (hfirst : first.find? [(normalizeName name, key)] = someValues values)
    (hsecond : second.find? [(normalizeName name, key)] = someValues more)
    (hjoined : joined.find? [(normalizeName name, key)] = someValues (values ++ more)) :
    ((ofReading (lower ++ [first, second] ++ higher)).lookup [(name, key)] false).bind
        List.getLast? =
      ((ofReading (lower ++ [joined] ++ higher)).lookup [(name, key)] false).bind
        List.getLast? := by
  simp only [lookup, ofReading, List.map_cons, List.map_nil, Bool.false_eq_true, if_false,
    List.reverse_append, List.reverse_cons, List.reverse_nil, List.nil_append,
    List.findSome?_append, List.findSome?_singleton, hfirst, hsecond, hjoined]
  cases higher.reverse.findSome? fun source => source.find? [(normalizeName name, key)] with
  | some found => rfl
  | none =>
    simp only [Option.none_or]
    rcases List.eq_nil_or_concat more with rfl | ⟨front, last, rfl⟩
    · rw [List.append_nil, someValues_nil, Option.none_or]
    · have hmore : front.concat last ≠ [] := by simp
      have hall : values ++ front.concat last ≠ [] := by simp
      rw [someValues_of_ne_nil hmore, someValues_of_ne_nil hall]
      simp

theorem lookup_collect_split
    (hfirst : first.find? [(normalizeName name, key)] = someValues values)
    (hsecond : second.find? [(normalizeName name, key)] = someValues more)
    (hjoined : joined.find? [(normalizeName name, key)] = someValues (values ++ more)) :
    (ofReading (lower ++ [first, second] ++ higher)).lookup [(name, key)] true =
      (ofReading (lower ++ [joined] ++ higher)).lookup [(name, key)] true := by
  simp only [lookup, ofReading, List.map_cons, List.map_nil, if_true, List.reverse_reverse,
    List.filterMap_append, List.filterMap_cons, List.filterMap_nil, hfirst, hsecond, hjoined]
  by_cases hvalues : values = []
  · subst hvalues
    by_cases hmore : more = []
    · subst hmore
      simp
    · simp [someValues_of_ne_nil hmore]
  · by_cases hmore : more = []
    · subst hmore
      simp [someValues_of_ne_nil hvalues]
    · have hall : values ++ more ≠ [] := List.append_ne_nil_of_left_ne_nil hvalues more
      simp [someValues_of_ne_nil hvalues, someValues_of_ne_nil hmore, someValues_of_ne_nil hall]

end Layers

section Resolution

variable {lower higher : List Source} {items more : List Item} {path path' whole : String}
  {split unsplit : Snapshot}

theorem Snapshot.value?_split
    (hsplit : split.layers = Layers.ofReading
      (lower ++ [Source.ofItems path items, Source.ofItems path' more] ++ higher))
    (hunsplit : unsplit.layers =
      Layers.ofReading (lower ++ [Source.ofItems whole (items ++ more)] ++ higher))
    (group : Option String) (key : String) (collect : Bool) :
    split.value? [(group, key)] collect = unsplit.value? [(group, key)] collect := by
  have hfirst := Source.find?_ofItems_singleton path items (group.getD defaultSection) key
  have hsecond := Source.find?_ofItems_singleton path' more (group.getD defaultSection) key
  have hjoined :=
    Source.find?_ofItems_singleton whole (items ++ more) (group.getD defaultSection) key
  rw [valuesUnder_append] at hjoined
  have hvalue : ∀ (snapshot : Snapshot) (collect : Bool),
      snapshot.value? [(group, key)] collect =
        (snapshot.layers.lookup [(group.getD defaultSection, key)] collect).bind fun values =>
          if collect then some (.array (values.map .string)) else values.getLast?.map .string := by
    intro snapshot collect
    simp only [Snapshot.value?, List.map_cons, List.map_nil]
    cases snapshot.layers.lookup [(group.getD defaultSection, key)] collect with
    | none => rfl
    | some values => rfl
  rw [hvalue, hvalue, hsplit, hunsplit]
  cases collect with
  | true => rw [Layers.lookup_collect_split lower higher hfirst hsecond hjoined]
  | false =>
    have hlast := congrArg (Option.map Value.string)
      (Layers.last_lookup_split lower higher hfirst hsecond hjoined)
    rw [Option.map_bind, Option.map_bind] at hlast
    exact hlast

theorem Entry.resolve_split {entry : Entry} (hname : entry.schema.name = entry.schema.dest)
    (hsplit : split.layers = Layers.ofReading
      (lower ++ [Source.ofItems path items, Source.ofItems path' more] ++ higher))
    (hunsplit : unsplit.layers =
      Layers.ofReading (lower ++ [Source.ofItems whole (items ++ more)] ++ higher))
    (group : Option String) (validating : Bool) :
    entry.resolve group (some split) validating =
      entry.resolve group (some unsplit) validating := by
  have hfile : entry.fileValue? group (some split) = entry.fileValue? group (some unsplit) := by
    simp only [fileValue?, Option.bind_some, names, if_pos hname]
    exact Snapshot.value?_split hsplit hunsplit group _ _
  rw [resolve, resolve, hfile]

end Resolution

namespace Source

/-- Two files that are accepted are accepted as one file too, with a blank line between them. It
holds what the first holds and then what the second holds, under the names as written and under
the normalized ones. And wherever the two stand one above the other, with whatever files below and
above them, the one may stand in their place: every option whose name is its dest resolves in the
same way. -/
theorem split_unnoticed {path path' content content' : String} {first second : Source}
    (hfirst : read path content = .ok first) (hsecond : read path' content' = .ok second)
    (whole : String) :
    ∃ joined, read whole (content ++ "\n\n" ++ content') = .ok joined ∧
      Sections.Joins first.sections second.sections joined.sections ∧
      Sections.Joins first.normalized second.normalized joined.normalized ∧
      ∀ (lower higher : List Source) (split unsplit : Snapshot),
        split.layers = Layers.ofReading (lower ++ [first, second] ++ higher) →
        unsplit.layers = Layers.ofReading (lower ++ [joined] ++ higher) →
        ∀ (entry : Entry) (group : Option String) (validating : Bool),
          entry.schema.name = entry.schema.dest →
          entry.resolve group (some split) validating =
            entry.resolve group (some unsplit) validating := by
  obtain ⟨items, hitems, rfl⟩ := exists_items_of_read hfirst
  obtain ⟨more, hmore, rfl⟩ := exists_items_of_read hsecond
  refine ⟨ofItems whole (items ++ more), ?_, Sections.joins_ofItems items more, ?_, ?_⟩
  · rw [read, readItems_append hitems hmore]
    rfl
  · simp only [ofItems, List.map_append]
    exact Sections.joins_ofItems _ _
  · intro lower higher split unsplit hsplit hunsplit entry group validating hname
    exact Entry.resolve_split hname hsplit hunsplit group validating

/-- The second file opens a section again whose last value the first file leaves unfinished. -/
theorem split_unnoticed_unfinished :
    ∃ first second joined,
      read "a.conf" "[Web]\nport = 80\nmotd: one\n  two" = .ok first ∧
      read "b.conf" "# later\n[web]\nport = 90" = .ok second ∧
      read "ab.conf" "[Web]\nport = 80\nmotd: one\n  two\n\n# later\n[web]\nport = 90" =
        .ok joined ∧
      joined.normalized.find? "web" "port" = some ["80", "90"] ∧
      joined.normalized.find? "web" "motd" = some ["one\ntwo"] ∧
      Entry.resolve { schema := Schema.ofName "port" Kind.text } (some "web")
          (some { layers := Layers.ofReading [first, second] }) false =
        Entry.resolve { schema := Schema.ofName "port" Kind.text } (some "web")
          (some { layers := Layers.ofReading [joined] }) false := by
  have hfirst : read "a.conf" "[Web]\nport = 80\nmotd: one\n  two" =
      .ok (ofItems "a.conf" [.header "Web", .assignment "Web" "port" "80",
        .assignment "Web" "motd" "one\ntwo"]) := rfl
  have hsecond : read "b.conf" "# later\n[web]\nport = 90" =
      .ok (ofItems "b.conf" [.header "web", .assignment "web" "port" "90"]) := rfl
  obtain ⟨joined, hjoined, -, hnormalized, hresolve⟩ :=
    split_unnoticed hfirst hsecond "ab.conf"
  refine ⟨_, _, joined, hfirst, hsecond, hjoined, ?_, ?_, ?_⟩
  · exact hnormalized.values "web" "port"
  · exact hnormalized.values "web" "motd"
  · exact hresolve [] [] _ _ rfl rfl _ _ _ rfl

end Source

end LayeredConfig
