import LayeredConfig.Proofs.Memo
import LayeredConfig.Proofs.Registration

/-!
# Invariants of runs

Every change of a registry, apart from `clear` and `reset`, is made of four
elementary ones: creating a group, registering one option, removing options, and
changing what is known of one option. A relation between registries that links
the two sides of each of these, and of several in a row, links the two sides of
every change (`Linked.apply`).

A property that survives the elementary changes, `clear`, `reset` and a parse
therefore holds in every registry that a run leads to
(`Registry.Invariant.after`).
-/

namespace LayeredConfig

/-- Whether a change drops the files in force. -/
def Change.isDrop : Change → Bool
  | .clear | .reset => true
  | _ => false

namespace Registry

/-- A relation links the registries before and after every elementary change, and after any number
of them. -/
structure Linked (R : Registry → Registry → Prop) : Prop where
  refl : ∀ r, R r r
  trans : ∀ {r s t}, R r s → R s t → R r t
  ensure : ∀ r group, R r (r.ensure group)
  registerAt : ∀ r schema target, R r (r.registerAt schema target).2
  unregister : ∀ r schemas group, R r (r.unregister schemas group).2
  modify : ∀ r dest group {f : Entry → Entry}, (∀ entry, (f entry).schema = entry.schema) →
    R r (r.modify dest group f).2

namespace Linked

variable {R : Registry → Registry → Prop}

theorem register (h : Linked R) (r : Registry) (schema : Schema) (group : Option String) :
    R r (r.register schema group).2 := by
  rw [register_eq_registerAt]
  exact h.registerAt r schema (group.map Group.ofName)

theorem registerMany (h : Linked R) (r : Registry) (schemas : List Schema)
    (group : Option String) : R r (r.registerMany group schemas).2 := by
  induction schemas generalizing r with
  | nil => exact h.refl r
  | cons schema rest ih =>
    cases hfirst : (r.register schema group).1 with
    | error e =>
      rw [registerMany_cons_of_error hfirst]
      exact h.refl r
    | ok isNew =>
      rw [registerMany_cons_of_ok hfirst]
      exact h.trans (h.register r schema group) (ih _)

theorem apply (h : Linked R) (r : Registry) {change : Change} (hdrop : change.isDrop = false) :
    R r (r.apply change).2 := by
  cases change with
  | register schema group => exact h.register r schema group
  | registerIn schema group => exact h.registerAt r schema (some group)
  | registerMany schemas group => exact h.registerMany r schemas group
  | registerManyIn schemas group =>
    exact h.trans (h.ensure r group) (h.registerMany _ schemas (some group.name))
  | registerGroup group => exact h.ensure r group
  | unregister schemas group => exact h.unregister r schemas group
  | setDefault dest value group => exact h.modify r dest group fun _ => rfl
  | clearDefault dest group => exact h.modify r dest group fun _ => rfl
  | lock dest value group => exact h.modify r dest group fun _ => rfl
  | unlock dest group => exact h.modify r dest group fun _ => rfl
  | clear => cases hdrop
  | reset => cases hdrop

/-- What is carried over by a relation that links registries is carried over by every elementary
change. -/
theorem carries (h : Linked R) {P : Registry → Prop} (hP : ∀ {r s}, R r s → P r → P s) :
    Linked fun r s => P r → P s where
  refl := fun _ hr => hr
  trans := fun hrs hst hr => hst (hrs hr)
  ensure := fun r group => hP (h.ensure r group)
  registerAt := fun r schema target => hP (h.registerAt r schema target)
  unregister := fun r schemas group => hP (h.unregister r schemas group)
  modify := fun r dest group _ hf => hP (h.modify r dest group hf)

end Linked

/-- A property that every operation preserves. -/
structure Invariant (P : Registry → Prop) : Prop where
  linked : Linked fun r s => P r → P s
  clear : ∀ {r}, P r → P r.clear
  reset : ∀ {r}, P r → P r.reset
  parse : ∀ {r host files validating}, P r → P (r.parse host files validating).2

namespace Invariant

variable {P : Registry → Prop} {r : Registry}

theorem apply (h : Invariant P) (hr : P r) (change : Change) : P (r.apply change).2 := by
  cases hdrop : change.isDrop with
  | false => exact h.linked.apply r hdrop hr
  | true =>
    cases change with
    | clear => exact h.clear hr
    | reset => exact h.reset hr
    | _ => cases hdrop

theorem perform (h : Invariant P) (hr : P r) (host : Host) (operation : Operation) :
    P (r.perform host operation).2 := by
  cases operation with
  | change change => exact h.apply hr change
  | read query => exact hr
  | dump level => exact hr
  | parse files validating => exact h.parse hr
  | reload files =>
    show P (r.reload host files).2
    rw [reload_registry]
    exact h.parse hr
  | reloadFiles =>
    show P (r.reload host r.files).2
    rw [reload_registry]
    exact h.parse hr

theorem run (h : Invariant P) (hr : P r) (history : List Step) : P (r.run history).2 := by
  induction history generalizing r with
  | nil => exact hr
  | cons step rest ih => exact ih (h.perform hr step.host step.operation)

/-- An invariant of the empty registry holds in every registry that a run leads to. -/
theorem after (h : Invariant P) (hempty : P {}) (history : List Step) :
    P (Config.after history).registry := by
  rw [Config.registry_after]
  exact h.run hempty history

end Invariant

end Registry

end LayeredConfig
