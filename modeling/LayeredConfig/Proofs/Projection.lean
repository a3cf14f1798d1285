import LayeredConfig.Proofs.AddressText
import LayeredConfig.Proofs.HasKind

/-!
# Converting twice

Conversion to a kind is a projection onto the values of the kind. What it gives
is such a value, and every such value converts to itself: numbers keep what they
are once they are within the bounds, an address is read back from its canonical
text, and rows and tables are converted item by item. So converting again
changes nothing, and the values of a kind are exactly what conversion can give.
-/

namespace LayeredConfig

theorem mapM_eq_ok_self {ε α : Type} {f : α → Except ε α} {xs : List α}
    (h : ∀ x ∈ xs, f x = .ok x) : xs.mapM f = .ok xs :=
  mapM_eq_ok_iff.2 (List.forall₂_same.2 h)

namespace Kind

theorem convertText_string {choices : Option (List String)} {text : String}
    (h : ∀ allowed, choices = some allowed → text ∈ allowed) :
    convertText choices (.string text) = .ok (.string text) := by
  cases choices with
  | none => rfl
  | some allowed => exact if_pos (h allowed rfl)

theorem convertInteger_of_some {min max : Option Int64} {value : Value} {n : Int64}
    (hgiven : integerOf? value = some n) (h : HasKind (integer min max) (.integer n)) :
    convertInteger min max value = .ok (.integer n) := by
  cases h with
  | integer hmin hmax =>
    have hinside : ¬(min.any (n < ·) || max.any (· < n)) = true := by
      rw [Bool.or_eq_true, Option.any_eq_true, Option.any_eq_true]
      rintro (⟨m, hm, hlt⟩ | ⟨m, hm, hlt⟩)
      · exact hmin m hm (of_decide_eq_true hlt)
      · exact hmax m hm (of_decide_eq_true hlt)
    simp only [convertInteger, hgiven, if_neg hinside]

theorem convertFloat_of_some {min max : Option Float} {value : Value} {x : Float}
    (hgiven : floatOf? value = some x) (h : HasKind (float min max) (.float x)) :
    convertFloat min max value = .ok (.float x) := by
  cases h with
  | float hnumber hmin hmax =>
    have hinside : ¬(min.any (x < ·) || max.any (· < x)) = true := by
      rw [Bool.or_eq_true, Option.any_eq_true, Option.any_eq_true]
      rintro (⟨m, hm, hlt⟩ | ⟨m, hm, hlt⟩)
      · exact hmin m hm (of_decide_eq_true hlt)
      · exact hmax m hm (of_decide_eq_true hlt)
    simp only [convertFloat, hgiven, if_neg hinside]

theorem trimmed_addressText (address : Address) :
    Text.trimmed (String.ofList address.text) = address.text := by
  rw [Text.trimmed, String.toList_ofList]
  exact address.plain_text.trim_eq

theorem convertAddress_text {family : Option Family} {address : Address}
    (h : ∀ f, family = some f → address.family = f) :
    convertAddress family (.string (String.ofList address.text)) =
      .ok (.string (String.ofList address.text)) := by
  have hfamily : family.all (Address.family address = ·) = true := by
    rw [Option.all_eq_true]
    exact fun f hf => decide_eq_true (h f hf)
  simp only [convertAddress, trimmed_addressText, Address.read?_text, Option.filter_some,
    hfamily, if_true]

/-- A value of a kind converts to itself. -/
theorem convert_of_hasKind {kind : Kind} {value : Value} (h : HasKind kind value) :
    kind.convert value = .ok value := by
  induction h with
  | string hchoices =>
    rw [convert]
    exact convertText_string hchoices
  | multiString =>
    rw [convert]
    apply convertText_string
    intro allowed hallowed
    cases hallowed
  | boolean =>
    rw [convert]
    rfl
  | integer hmin hmax =>
    rw [convert]
    exact convertInteger_of_some rfl (.integer hmin hmax)
  | float hnumber hmin hmax =>
    rw [convert]
    refine convertFloat_of_some ?_ (.float hnumber hmin hmax)
    rw [floatOf?, Option.filter_some, hnumber]
    rfl
  | address hfamily =>
    rw [convert]
    exact convertAddress_text hfamily
  | list hitems ih =>
    rw [convert, mapM_eq_ok_self ih]
    rfl
  | dict hfields ih =>
    rw [convert, mapM_eq_ok_self fun f hf => by rw [ih f hf]; rfl]
    rfl

end Kind

theorem Schema.convert_of_holds {schema : Schema} {value : Value} (h : schema.Holds value) :
    schema.convert value = .ok value := by
  cases h with
  | single hsingle hvalue =>
    have hplain : schema.convert value = schema.kind.convert value :=
      if_neg (by rw [hsingle]; exact Bool.false_ne_true)
    rw [hplain]
    exact Kind.convert_of_hasKind hvalue
  | row hmulti hitems =>
    rw [Schema.convert, if_pos hmulti]
    simp only [mapM_eq_ok_self fun x hx => Kind.convert_of_hasKind (hitems x hx)]
    rfl

/-- A conversion is a projection onto some values. -/
structure Projects (convert : Value → Except ValueError Value) (Typed : Value → Prop) : Prop where
  /-- What it gives is one of them. -/
  typed : ∀ value converted, convert value = .ok converted → Typed converted
  /-- It leaves each of them alone. -/
  fixed : ∀ value, Typed value → convert value = .ok value
  idempotent : ∀ value converted, convert value = .ok converted →
    convert converted = .ok converted
  /-- It gives exactly what it leaves alone. -/
  image : ∀ converted, (∃ value, convert value = .ok converted) ↔ convert converted = .ok converted

theorem Projects.of {convert : Value → Except ValueError Value} {Typed : Value → Prop}
    (htyped : ∀ value converted, convert value = .ok converted → Typed converted)
    (hfixed : ∀ value, Typed value → convert value = .ok value) : Projects convert Typed where
  typed := htyped
  fixed := hfixed
  idempotent value converted h := hfixed converted (htyped value converted h)
  image converted :=
    ⟨fun ⟨value, h⟩ => hfixed converted (htyped value converted h), fun h => ⟨converted, h⟩⟩

/-- Conversion projects onto the values of a kind, and conversion for an option onto the values of
the option. In particular an address and its canonical text stand for each other. -/
theorem convert_projects :
    (∀ kind : Kind, Projects kind.convert (HasKind kind)) ∧
      (∀ schema : Schema, Projects schema.convert schema.Holds) ∧
      ∀ address : Address, Address.read? address.text = some address :=
  ⟨fun _ => .of (fun _ _ => Kind.hasKind_convert) fun _ => Kind.convert_of_hasKind,
    fun _ => .of (fun _ _ => Schema.holds_convert) fun _ => Schema.convert_of_holds,
    Address.read?_text⟩

example : (Kind.list (.address none)).convert (.string "0:0::1, ::FFFF:102:304") =
    .ok (.array [.string "::1", .string "::ffff:1.2.3.4"]) := rfl

end LayeredConfig
