import LayeredConfig.Schema

/-!
# Options that equal themselves

Options are compared part by part, and doubles are compared as numbers. So an
option equals itself unless a double that is no number occurs in it: as a bound
of its kind, at any depth, or anywhere in its default.
-/

namespace LayeredConfig

/-- Of all doubles, only those that are no numbers differ from themselves. -/
theorem double_beq_self (x : Float) : (x == x) = !x.isNaN := by
  show x.toModel.unpack.beq x.toModel.unpack = !x.toModel.unpack.isNaN
  cases x.toModel.unpack with
  | infinity sign => cases sign <;> rfl
  | notANumber => rfl
  | zero sign => rfl
  | finite sign mantissa exponent hpos =>
    have hexponent : compare exponent exponent = .eq := Std.ReflCmp.compare_self
    have hmantissa : compare mantissa mantissa = .eq := Std.ReflCmp.compare_self
    have hself : (compare exponent exponent).then (compare mantissa mantissa) = .eq := by
      rw [hexponent, hmantissa]
      rfl
    cases sign with
    | positive => exact beq_iff_eq.2 (congrArg some hself)
    | negative => exact beq_iff_eq.2 (congrArg (fun order : Ordering => some order.swap) hself)

/-- A double that is no number occurs in a value. -/
inductive Value.HasNaN : Value → Prop
  | float {x : Float} (hx : x.isNaN = true) : HasNaN (.float x)
  | array {items : List Value} {x : Value} (hmem : x ∈ items) (hx : HasNaN x) :
      HasNaN (.array items)
  | table {fields : List (String × Value)} {f : String × Value} (hmem : f ∈ fields)
      (hf : HasNaN f.2) : HasNaN (.table fields)

/-- A bound of a kind, or of a kind in it, is no number. -/
inductive Kind.HasNaN : Kind → Prop
  | min {x : Float} {max : Option Float} (hx : x.isNaN = true) : HasNaN (.float (some x) max)
  | max {min : Option Float} {x : Float} (hx : x.isNaN = true) : HasNaN (.float min (some x))
  | list {item : Kind} (hitem : HasNaN item) : HasNaN (.list item)
  | dict {field : Kind} (hfield : HasNaN field) : HasNaN (.dict field)

/-- A double that is no number occurs in the kind of an option or in its default. -/
def Schema.HasNaN (schema : Schema) : Prop :=
  schema.kind.HasNaN ∨ ∃ value, schema.default = some value ∧ value.HasNaN

namespace Value

mutual

theorem same_self_iff : ∀ value : Value, same value value = true ↔ ¬value.HasNaN
  | string _ | integer _ | boolean _ | datetime _ => by
    simp only [same, decide_true, true_iff]
    rintro ⟨⟩
  | float x => by
    rw [same, double_beq_self, Bool.not_eq_true', Bool.eq_false_iff]
    constructor
    · rintro hx ⟨hnan⟩
      exact hx hnan
    · intro h hnan
      exact h (.float hnan)
  | array items => by
    rw [same, sameItems_self_iff items]
    constructor
    · rintro h (_ | ⟨hmem, hx⟩)
      exact h _ hmem hx
    · intro h x hmem hx
      exact h (.array hmem hx)
  | table fields => by
    rw [same, sameFields_self_iff fields]
    constructor
    · rintro h (_ | _ | ⟨hmem, hf⟩)
      exact h _ hmem hf
    · intro h f hmem hf
      exact h (.table hmem hf)

theorem sameItems_self_iff : ∀ items : List Value,
    sameItems items items = true ↔ ∀ x ∈ items, ¬x.HasNaN
  | [] => by simp [sameItems]
  | x :: rest => by
    rw [sameItems, Bool.and_eq_true, same_self_iff x, sameItems_self_iff rest,
      List.forall_mem_cons]

theorem sameFields_self_iff : ∀ fields : List (String × Value),
    sameFields fields fields = true ↔ ∀ f ∈ fields, ¬f.2.HasNaN
  | [] => by simp [sameFields]
  | (name, x) :: rest => by
    rw [sameFields, decide_eq_true rfl, Bool.true_and, Bool.and_eq_true, same_self_iff x,
      sameFields_self_iff rest, List.forall_mem_cons]

end

end Value

theorem bound_beq_self_iff (bound : Option Float) :
    (bound == bound) = true ↔ ∀ x, bound = some x → ¬x.isNaN = true := by
  cases bound with
  | none => simp
  | some x => simp [double_beq_self]

theorem Kind.same_self_iff (kind : Kind) : same kind kind = true ↔ ¬kind.HasNaN := by
  induction kind with
  | float min max =>
    rw [same, Bool.and_eq_true, bound_beq_self_iff, bound_beq_self_iff]
    constructor
    · rintro ⟨hmin, hmax⟩ (hnan | hnan)
      · exact hmin _ rfl hnan
      · exact hmax _ rfl hnan
    · intro h
      refine ⟨fun x hx hnan => h ?_, fun x hx hnan => h ?_⟩
      · rw [hx]
        exact .min hnan
      · rw [hx]
        exact .max hnan
  | list item ih =>
    rw [same, ih]
    constructor
    · rintro h (_ | _ | hitem)
      exact h hitem
    · intro h hitem
      exact h (.list hitem)
  | dict field ih =>
    rw [same, ih]
    constructor
    · rintro h (_ | _ | _ | hfield)
      exact h hfield
    · intro h hfield
      exact h (.dict hfield)
  | _ =>
    simp only [same, decide_true, Bool.and_self, true_iff]
    rintro ⟨⟩

theorem default_beq_self_iff (default : Option Value) :
    (default == default) = true ↔ ∀ value, default = some value → ¬value.HasNaN := by
  cases default with
  | none => simp
  | some value =>
    rw [Option.some_beq_some]
    show Value.same value value = true ↔ _
    simp [Value.same_self_iff]

/-- An option equals itself unless a double that is no number occurs in it. -/
theorem Schema.beq_self_iff (schema : Schema) : (schema == schema) = true ↔ ¬schema.HasNaN := by
  have hkind : (schema.kind == schema.kind) = true ↔ ¬schema.kind.HasNaN :=
    schema.kind.same_self_iff
  show same schema schema = true ↔ _
  simp only [same, decide_true, Bool.true_and, Bool.and_true, Bool.and_eq_true, hkind,
    default_beq_self_iff, HasNaN, not_or, not_exists, not_and]

end LayeredConfig
