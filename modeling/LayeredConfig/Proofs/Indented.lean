import LayeredConfig.Proofs.Faults
import LayeredConfig.Proofs.Statements

/-!
# Indented lines

While a value is read, an indented line goes on in the section of the value: it
is one more line of it, or it assigns another one. There is one exception. A
line that begins with a bracket and has what could be a key before its first
separator completes the value as an assignment would, but is then taken for what
its bracket announces: it opens a section, or is refused as a header that is not
closed.
-/

namespace LayeredConfig

/-- A body that begins with a bracket, and has what could be a key before its first separator. -/
def IsBracketedKey (body : List Char) : Prop :=
  body.head? = some '[' ∧ ¬Continues body

namespace Reader

/-- A reader stays in its section at a body. -/
inductive GoesOn (reader : Reader) (body : List Char) : Reader → Prop
  | continued {name key : String} {lines : List (List Char)}
      (hplace : reader.place = .reading name key lines) :
      GoesOn reader body { reader with place := .reading name key (lines ++ [body]) }
  | assigned {name key : String} {first : List Char} (hplace : reader.place.name? = some name)
      (hbody : Statement.ofBody body = .ok (.assignment key first)) :
      GoesOn reader body { items := reader.settle.items, place := .reading name key [first] }

variable {reader next : Reader} {name key : String} {lines : List (List Char)} {body : List Char}

theorem GoesOn.name? (h : reader.GoesOn body next) :
    next.place.name? = reader.place.name? := by
  cases h with
  | continued hplace => rw [hplace]; rfl
  | assigned hplace hbody => rw [hplace]; rfl

theorem step_indented (hplace : reader.place = .reading name key lines)
    (hassigns : Statement.isAssignment body = true → body.head? ≠ some '[') :
    ∃ next, reader.step (.body true body) = .ok next ∧ reader.GoesOn body next := by
  rw [step]
  cases hassignment : Statement.isAssignment body with
  | false =>
    simp only [Bool.not_false, Bool.and_self, if_true, continueWith, hplace]
    exact ⟨_, rfl, .continued hplace⟩
  | true =>
    obtain ⟨key', first, hbody⟩ :=
      Statement.ofBody_of_isAssignment hassignment (hassigns hassignment)
    have hname : reader.place.name? = some name := by rw [hplace]; rfl
    simp only [Bool.not_true, Bool.and_false, Bool.false_eq_true, if_false, begin, hbody,
      name?_settle, hname]
    exact ⟨_, rfl, .assigned hname hbody⟩

theorem step_bracketed {rest : List Char} (reader : Reader)
    (hassigns : Statement.isAssignment ('[' :: rest) = true) :
    (∃ opened, reader.step (.body true ('[' :: rest)) = .ok
        { items := reader.settle.items ++ [.header opened], place := .inside opened }) ∨
      reader.step (.body true ('[' :: rest)) = .error .unclosedHeader := by
  rw [step]
  simp only [hassigns, Bool.not_true, Bool.and_false, Bool.false_eq_true, if_false, begin]
  rcases Statement.ofBody_of_bracket hassigns with ⟨opened, hbody⟩ | hbody
  · rw [hbody]
    exact .inl ⟨opened, rfl⟩
  · rw [hbody]
    exact .inr rfl

/-- An indented line that a reader comes to while it reads a value, and that is neither blank nor a
comment, goes on in the section of the value, unless it begins with a bracket and has what could
be a key before its first separator. Such a line leaves the section for another one, or is refused
as a header. -/
theorem indented_goes_on {content : String} {front back : List (List Char)} {raw : List Char}
    (hlines : Text.lines content.toList = front ++ raw :: back)
    (hreached : ({} : Reader).run 1 front = .ok reader)
    (hplace : reader.place = .reading name key lines)
    (hindented : IsIndented raw) (hblank : ¬IsBlankLine raw) (hcomment : ¬IsCommentLine raw) :
    (¬IsBracketedKey (Text.trim raw) →
      ∃ next, ({} : Reader).run 1 (front ++ [raw]) = .ok next ∧
        reader.GoesOn (Text.trim raw) next ∧ next.place.name? = some name) ∧
    (IsBracketedKey (Text.trim raw) →
      (∃ opened, ({} : Reader).run 1 (front ++ [raw]) = .ok
        { items := reader.settle.items ++ [.header opened], place := .inside opened }) ∨
      readItems content =
        .error ⟨front.length + 1, String.ofList (Text.trimEnd raw), .unclosedHeader⟩) := by
  have hraw : '\n' ∉ raw := Text.newline_not_mem_lines content.toList raw
    (hlines ▸ List.mem_append_right _ List.mem_cons_self)
  have hline : Line.ofText raw = .body true (Text.trim raw) :=
    Line.ofText_eq_body_iff.2 ⟨hblank, hcomment, rfl, iff_of_true rfl hindented⟩
  have hcontinues := Line.continues_iff hraw hline
  have htakes := takes_of_run hreached
  have hrun : ∀ next, reader.step (Line.ofText raw) = .ok next →
      ({} : Reader).run 1 (front ++ [raw]) = .ok next :=
    fun next hstep => (htakes.append (.cons hstep .nil)).run 1
  constructor
  · intro hkey
    have hassigns : Statement.isAssignment (Text.trim raw) = true →
        (Text.trim raw).head? ≠ some '[' := by
      intro htrue hhead
      refine hkey ⟨hhead, fun h => ?_⟩
      rw [hcontinues.1 h] at htrue
      cases htrue
    obtain ⟨next, hstep, hgoes⟩ := step_indented hplace hassigns
    rw [← hline] at hstep
    refine ⟨next, hrun next hstep, hgoes, ?_⟩
    rw [hgoes.name?, hplace]
    rfl
  · rintro ⟨hhead, hkey⟩
    obtain ⟨rest, hbody⟩ := List.head?_eq_some_iff.1 hhead
    rw [hcontinues, Bool.not_eq_false] at hkey
    rw [hbody] at hline hkey
    rcases step_bracketed reader hkey with ⟨opened, hstep⟩ | hstep
    · rw [← hline] at hstep
      exact .inl ⟨opened, hrun _ hstep⟩
    · rw [← hline] at hstep
      refine .inr (readItems_eq_error_iff.2 (run_eq_error_iff.2 ?_))
      exact ⟨front, raw, back, reader, _, hlines, htakes, hstep, by rw [Nat.add_comm]⟩

/-- A list in brackets whose items have no separators is the value of the key above it. -/
theorem indented_goes_on_list :
    Text.lines "[s]\nhosts =\n  [a, b]\n".toList =
        ["[s]".toList, "hosts =".toList] ++ "  [a, b]".toList :: [] ∧
      ({} : Reader).run 1 ["[s]".toList, "hosts =".toList] =
        .ok { items := [.header "s"], place := .reading "s" "hosts" [[]] } ∧
      IsIndented "  [a, b]".toList ∧ ¬IsBlankLine "  [a, b]".toList ∧
      ¬IsCommentLine "  [a, b]".toList ∧ ¬IsBracketedKey (Text.trim "  [a, b]".toList) ∧
      ∃ next, ({} : Reader).run 1 (["[s]".toList, "hosts =".toList] ++ ["  [a, b]".toList]) =
          .ok next ∧
        GoesOn { items := [.header "s"], place := .reading "s" "hosts" [[]] }
          (Text.trim "  [a, b]".toList) next ∧ next.place.name? = some "s" := by
  have hlines : Text.lines "[s]\nhosts =\n  [a, b]\n".toList =
      ["[s]".toList, "hosts =".toList] ++ "  [a, b]".toList :: [] := rfl
  have hreached : ({} : Reader).run 1 ["[s]".toList, "hosts =".toList] =
      .ok { items := [.header "s"], place := .reading "s" "hosts" [[]] } := rfl
  have hline : Line.ofText "  [a, b]".toList = .body true "[a, b]".toList := rfl
  obtain ⟨hblank, hcomment, -, hindented⟩ := Line.ofText_eq_body_iff.1 hline
  have hkey : ¬IsBracketedKey (Text.trim "  [a, b]".toList) := fun h =>
    h.2 ((Line.continues_iff (by decide) hline).2 rfl)
  exact ⟨hlines, hreached, hindented.1 rfl, hblank, hcomment, hkey,
    (indented_goes_on hlines hreached rfl (hindented.1 rfl) hblank hcomment).1 hkey⟩

/-- A list in brackets whose items have separators is taken for a header: closed, it opens a section
of that name, and open, it is refused. -/
theorem bracketed_items_leave :
    readItems "[s]\nhosts = a:1\n  [b:2, c:3]\nk = v\n" =
        .ok [.header "s", .assignment "s" "hosts" "a:1", .header "b:2, c:3",
          .assignment "b:2, c:3" "k" "v"] ∧
      readItems "[s]\nhosts = a:1\n  [b:2,\n   c:3]\n" =
        .error ⟨3, "  [b:2,", .unclosedHeader⟩ :=
  ⟨rfl, rfl⟩

end Reader

end LayeredConfig
