import LayeredConfig.Schema
import Mathlib.Data.List.Forall2

/-!
# Values of a kind

`HasKind` says which values a kind has, rule by rule and without conversion: a
text among the choices, a number within the bounds, the canonical text of an
address, rows and tables of such values to any depth. Whatever conversion
accepts, text or typed value, what it gives is a value of the kind.

A kind with bounds is compared as its numbers are compared, so a bound that is
no number bounds nothing; a double that is no number is never a value.
-/

namespace LayeredConfig

/-- The values of a kind. -/
inductive HasKind : Kind → Value → Prop
  | string {choices : Option (List String)} {text : String}
      (hchoices : ∀ allowed, choices = some allowed → text ∈ allowed) :
      HasKind (.string choices) (.string text)
  | multiString {text : String} : HasKind .multiString (.string text)
  | boolean {b : Bool} : HasKind .boolean (.boolean b)
  | integer {min max : Option Int64} {n : Int64} (hmin : ∀ m, min = some m → ¬n < m)
      (hmax : ∀ m, max = some m → ¬m < n) : HasKind (.integer min max) (.integer n)
  | float {min max : Option Float} {x : Float} (hnumber : x.isNaN = false)
      (hmin : ∀ m, min = some m → ¬x < m) (hmax : ∀ m, max = some m → ¬m < x) :
      HasKind (.float min max) (.float x)
  | address {family : Option Family} {address : Address}
      (hfamily : ∀ f, family = some f → address.family = f) :
      HasKind (.address family) (.string (String.ofList address.text))
  | list {item : Kind} {items : List Value} (hitems : ∀ x ∈ items, HasKind item x) :
      HasKind (.list item) (.array items)
  | dict {field : Kind} {fields : List (String × Value)}
      (hfields : ∀ f ∈ fields, HasKind field f.2) : HasKind (.dict field) (.table fields)

/-- The values of an option: a row of values of its kind if it collects, else one. -/
inductive Schema.Holds (schema : Schema) : Value → Prop
  | single {value : Value} (hsingle : schema.multi = false) (hvalue : HasKind schema.kind value) :
      Schema.Holds schema value
  | row {items : List Value} (hmulti : schema.multi = true)
      (hitems : ∀ x ∈ items, HasKind schema.kind x) : Schema.Holds schema (.array items)

theorem map_eq_ok {ε α β : Type} {f : α → β} {outcome : Except ε α} {y : β}
    (h : f <$> outcome = .ok y) : ∃ x, outcome = .ok x ∧ f x = y := by
  cases outcome with
  | error e => cases h
  | ok x =>
    cases h
    exact ⟨x, rfl, rfl⟩

theorem map_eq_error_iff {ε α β : Type} {f : α → β} {x : Except ε α} {e : ε} :
    f <$> x = .error e ↔ x = .error e := by
  cases x with
  | error other => exact ⟨fun h => by cases h; rfl, fun h => by cases h; rfl⟩
  | ok value => exact ⟨nofun, nofun⟩

theorem mapM_eq_ok_iff {ε α β : Type} {f : α → Except ε β} {xs : List α} {ys : List β} :
    xs.mapM f = .ok ys ↔ List.Forall₂ (fun x y => f x = .ok y) xs ys := by
  induction xs generalizing ys with
  | nil =>
    rw [List.forall₂_nil_left_iff]
    constructor
    · rintro ⟨⟩
      rfl
    · rintro rfl
      rfl
  | cons x rest ih =>
    rw [List.mapM_cons, List.forall₂_cons_left_iff]
    constructor
    · intro h
      cases hx : f x with
      | error e =>
        rw [hx] at h
        cases h
      | ok y =>
        cases hrest : rest.mapM f with
        | error e =>
          rw [hx, hrest] at h
          cases h
        | ok more =>
          rw [hx, hrest] at h
          cases h
          exact ⟨y, more, rfl, ih.1 hrest, rfl⟩
    · rintro ⟨y, more, hx, hrest, rfl⟩
      rw [hx, ih.2 hrest]
      rfl

theorem exists_of_forall₂_of_mem {α β : Type} {R : α → β → Prop} {xs : List α} {ys : List β}
    (h : List.Forall₂ R xs ys) {y : β} (hy : y ∈ ys) : ∃ x ∈ xs, R x y := by
  obtain ⟨i, hi, rfl⟩ := List.mem_iff_getElem.1 hy
  have hlt : i < xs.length := h.length_eq ▸ hi
  exact ⟨xs[i], List.getElem_mem hlt, h.get hlt hi⟩

theorem exists_of_mem_mapM {ε α β : Type} {f : α → Except ε β} {xs : List α} {ys : List β}
    (h : xs.mapM f = .ok ys) {y : β} (hy : y ∈ ys) : ∃ x ∈ xs, f x = .ok y :=
  exists_of_forall₂_of_mem (mapM_eq_ok_iff.1 h) hy

namespace Table

theorem mem_insert {α : Type} {table : Table α} {key : String} {datum : α} {b : String × α}
    (h : b ∈ (table.insert key datum).toList) : b = (key, datum) ∨ b ∈ table.toList :=
  Bindings.mem_insert h

end Table

namespace Kind

variable {value converted : Value}

theorem exists_of_chosen {choices : Option (List String)} {text : String}
    (h : (match choices with
      | none => .ok (.string text)
      | some allowed =>
        if text ∈ allowed then .ok (.string text)
        else .error (.notInChoices text allowed) : Except ValueError Value) = .ok converted) :
    ∃ text, converted = .string text ∧ ∀ allowed, choices = some allowed → text ∈ allowed := by
  cases choices with
  | none =>
    cases h
    exact ⟨text, rfl, fun allowed hallowed => nomatch hallowed⟩
  | some allowed =>
    simp only at h
    split at h
    · next hmem =>
      cases h
      refine ⟨text, rfl, fun allowed' hallowed => ?_⟩
      cases hallowed
      exact hmem
    · cases h

theorem exists_of_convertText {choices : Option (List String)}
    (h : convertText choices value = .ok converted) :
    ∃ text, converted = .string text ∧ ∀ allowed, choices = some allowed → text ∈ allowed := by
  cases value with
  | string text => exact exists_of_chosen h
  | integer n => exact exists_of_chosen h
  | float x => exact exists_of_chosen h
  | boolean b => exact exists_of_chosen h
  | datetime text => cases h
  | array items => cases h
  | table fields => cases h

theorem hasKind_convertBoolean (h : convertBoolean value = .ok converted) :
    HasKind boolean converted := by
  rw [convertBoolean.eq_def] at h
  split at h
  · cases h
    exact .boolean
  · split at h
    · cases h
      exact .boolean
    · cases h
  · cases h

theorem hasKind_convertInteger {min max : Option Int64}
    (h : convertInteger min max value = .ok converted) :
    HasKind (integer min max) converted := by
  rw [convertInteger] at h
  cases hgiven : integerOf? value with
  | none =>
    rw [hgiven] at h
    cases h
  | some n =>
    simp only [hgiven] at h
    split at h
    · cases h
    · next hinside =>
      cases h
      rw [Bool.or_eq_true, not_or] at hinside
      refine .integer (fun m hm hlt => hinside.1 ?_) (fun m hm hlt => hinside.2 ?_)
      · simp [hm, hlt]
      · simp [hm, hlt]

theorem hasKind_convertFloat {min max : Option Float}
    (h : convertFloat min max value = .ok converted) :
    HasKind (float min max) converted := by
  rw [convertFloat] at h
  cases hgiven : floatOf? value with
  | none =>
    rw [hgiven] at h
    cases h
  | some x =>
    simp only [hgiven] at h
    split at h
    · cases h
    · next hinside =>
      cases h
      rw [Bool.or_eq_true, not_or] at hinside
      have hnumber : x.isNaN = false := by
        rw [floatOf?.eq_def, Option.filter_eq_some_iff] at hgiven
        simpa using hgiven.2
      refine .float hnumber (fun m hm hlt => hinside.1 ?_) (fun m hm hlt => hinside.2 ?_)
      · simp [hm, hlt]
      · simp [hm, hlt]

theorem hasKind_convertAddress {family : Option Family}
    (h : convertAddress family value = .ok converted) :
    HasKind (address family) converted := by
  cases value with
  | string text =>
    rw [convertAddress] at h
    cases hgiven : (Address.read? (Text.trimmed text)).filter
        fun a => family.all (Address.family a = ·) with
    | none =>
      simp only [hgiven] at h
      cases h
    | some a =>
      simp only [hgiven] at h
      cases h
      refine .address fun f hf => ?_
      have hfamily := (Option.filter_eq_some_iff.1 hgiven).2
      simpa [hf] using hfamily
  | _ => cases h

theorem forall_mem_readPairs {convertWord : String → Except ValueError Value}
    {P : Value → Prop} (hword : ∀ word value, convertWord word = .ok value → P value)
    {pieces : List (List Char)} {table result : Table Value}
    (htable : ∀ f ∈ table.toList, P f.2)
    (h : readPairs convertWord table pieces = .ok result) :
    ∀ f ∈ result.toList, P f.2 := by
  induction pieces generalizing table with
  | nil =>
    cases h
    exact htable
  | cons piece rest ih =>
    rw [readPairs] at h
    split at h
    · cases h
    · next before after hcut =>
      simp only at h
      split at h
      · cases h
      · split at h
        · cases h
        · cases hvalue : convertWord (String.ofList (Text.trim after)) with
          | error e =>
            rw [hvalue] at h
            cases h
          | ok value =>
            rw [hvalue] at h
            refine ih (fun f hf => ?_) h
            rcases Table.mem_insert hf with rfl | hf
            · exact hword _ value hvalue
            · exact htable f hf

/-- What conversion gives is a value of the kind. -/
theorem hasKind_convert {kind : Kind} (h : kind.convert value = .ok converted) :
    HasKind kind converted := by
  induction kind generalizing value converted with
  | string choices =>
    rw [convert] at h
    obtain ⟨text, rfl, hchoices⟩ := exists_of_convertText h
    exact .string hchoices
  | multiString =>
    rw [convert] at h
    obtain ⟨text, rfl, -⟩ := exists_of_convertText h
    exact .multiString
  | boolean =>
    rw [convert] at h
    exact hasKind_convertBoolean h
  | integer min max =>
    rw [convert] at h
    exact hasKind_convertInteger h
  | float min max =>
    rw [convert] at h
    exact hasKind_convertFloat h
  | address family =>
    rw [convert] at h
    exact hasKind_convertAddress h
  | list item ih =>
    -- Given as an array or cut out of a text, the items are converted one by one.
    cases value with
    | array items =>
      rw [convert] at h
      obtain ⟨row, hrow, rfl⟩ := map_eq_ok h
      refine .list fun x hx => ?_
      obtain ⟨given, -, hgiven⟩ := exists_of_mem_mapM hrow hx
      exact ih hgiven
    | string text =>
      rw [convert] at h
      obtain ⟨row, hrow, rfl⟩ := map_eq_ok h
      refine .list fun x hx => ?_
      obtain ⟨piece, -, hpiece⟩ := exists_of_mem_mapM hrow hx
      exact ih hpiece
    | _ => simp [convert, refuse] at h
  | dict field ih =>
    cases value with
    | table fields =>
      rw [convert] at h
      obtain ⟨row, hrow, rfl⟩ := map_eq_ok h
      refine .dict fun f hf => ?_
      obtain ⟨given, -, hgiven⟩ := exists_of_mem_mapM hrow hf
      obtain ⟨x, hx, rfl⟩ := map_eq_ok hgiven
      exact ih hx
    | string text =>
      rw [convert] at h
      obtain ⟨table, htable, rfl⟩ := map_eq_ok h
      refine .dict (forall_mem_readPairs (fun word x hx => ih hx) (fun f hf => ?_) htable)
      cases hf
    | _ => simp [convert, refuse] at h

end Kind

theorem Schema.holds_convert {schema : Schema} {value converted : Value}
    (h : schema.convert value = .ok converted) : schema.Holds converted := by
  have hrow : ∀ {items : List Value}, schema.multi = true →
      Value.array <$> items.mapM schema.kind.convert = .ok converted →
      schema.Holds converted := by
    intro items hmulti hitems
    obtain ⟨row, hconverted, rfl⟩ := map_eq_ok hitems
    refine .row hmulti fun x hx => ?_
    obtain ⟨given, -, hgiven⟩ := exists_of_mem_mapM hconverted hx
    exact Kind.hasKind_convert hgiven
  rw [Schema.convert.eq_def] at h
  cases hmulti : schema.multi with
  | false =>
    rw [hmulti] at h
    exact .single hmulti (Kind.hasKind_convert h)
  | true =>
    rw [hmulti, if_pos rfl] at h
    cases value with
    | array items => exact hrow hmulti h
    | _ => exact hrow hmulti h

end LayeredConfig
