import LayeredConfig.Proofs.Memo
import LayeredConfig.Proofs.Registration

/-!
# Failed operations leave no trace

An operation that fails gives the registry back as it found it. Registering
several options is the one exception, and keeps exactly the options before the
one that fails.

A failed operation may still have emptied the memo. Since the memo is invisible,
the configuration answers every later run as if the operation had never been
tried.
-/

namespace LayeredConfig

/-- Whether a change registers several options, each of which may fail. -/
def Change.isBulk : Change → Bool
  | .registerMany _ _ | .registerManyIn _ _ => true
  | _ => false

namespace Operation

def isBulk : Operation → Bool
  | .change c => c.isBulk
  | _ => false

/-- How an operation says that it has failed: a reload by its truth value, and everything else by
an error. -/
def Fails (operation : Operation) (outcome : Config.Outcome) : Prop :=
  match operation with
  | .reload _ | .reloadFiles => outcome.answer = .ok (.truth false)
  | _ => ∃ e, outcome.answer = .error e

end Operation

namespace Registry

variable {r : Registry}

theorem answered_error {α : Type} {f : α → Answer} {outcome : Except ConfigError α × Registry}
    {e : ConfigError} (h : (apply.answered f outcome).1 = .error e) : outcome.1 = .error e := by
  obtain ⟨answer, r'⟩ := outcome
  cases answer with
  | error e' =>
    cases h
    rfl
  | ok x => cases h

theorem apply_error {change : Change} {e : ConfigError} (hbulk : change.isBulk = false)
    (h : (r.apply change).1 = .error e) : (r.apply change).2 = r := by
  cases change with
  | register schema group => exact register_error (answered_error h)
  | registerIn schema group => exact registerIn_error (answered_error h)
  | registerMany schemas group => cases hbulk
  | registerManyIn schemas group => cases hbulk
  | registerGroup group => cases h
  | unregister schemas group => exact unregister_error (answered_error h)
  | setDefault dest value group => exact modify_error (answered_error h)
  | clearDefault dest group => exact modify_error (answered_error h)
  | lock dest value group => exact modify_error (answered_error h)
  | unlock dest group => exact modify_error (answered_error h)
  | clear => cases h
  | reset => cases h

theorem perform_fails {host : Host} {operation : Operation} (hbulk : operation.isBulk = false)
    (h : operation.Fails (r.perform host operation).1) :
    (r.perform host operation).2 = r := by
  cases operation with
  | change change =>
    obtain ⟨e, he⟩ := h
    exact apply_error hbulk he
  | read query => rfl
  | dump level => rfl
  | parse files validating =>
    obtain ⟨e, he⟩ := h
    cases hparse : (r.parse host files validating).1 with
    | error e' => exact parse_error hparse
    | ok _ =>
      simp only [perform, hparse] at he
      cases he
  | reload files => exact reload_false (Answer.truth.inj (Except.ok.inj h))
  | reloadFiles => exact reload_false (Answer.truth.inj (Except.ok.inj h))

end Registry

namespace Config

@[simp] theorem perform_change_answer (config : Config) (host : Host) (change : Change) :
    (config.perform host (.change change)).1.answer = (config.registry.apply change).1 := by
  rw [perform]
  split
  · rfl
  · rfl

theorem perform_change_congr {config : Config} {change change' : Change}
    (hrefused : change.isRefused = change'.isRefused)
    (happly : config.registry.apply change = config.registry.apply change') (host : Host) :
    config.perform host (.change change) = config.perform host (.change change') := by
  rw [perform, perform, hrefused, Config.change, Config.change, happly]

theorem perform_registerMany (config : Config) (host : Host) (schemas : List Schema)
    (group : Option String) :
    (config.perform host (.change (.registerMany schemas group))).2 =
      { registry := (config.registry.registerMany group schemas).2 } := rfl

/-- In every configuration that a run leads to, an operation that fails leaves the registry as it
was, options, groups, overrides, locks, files and mode, and every later run answers as if it had
not been tried. Registering several options that fails at one of them leaves what registering the
options before it leaves. -/
theorem failure_leaves_no_trace (history : List Step) (host : Host) :
    (∀ operation : Operation, operation.isBulk = false →
      operation.Fails ((after history).perform host operation).1 →
        ((after history).perform host operation).2.registry = (after history).registry ∧
          ∀ later, (((after history).perform host operation).2.run later).1 =
            ((after history).run later).1) ∧
      ∀ schemas group e,
        ((after history).perform host (.change (.registerMany schemas group))).1.answer =
            .error e →
          ∃ before schema rest, schemas = before ++ schema :: rest ∧
            ((after history).perform host (.change (.registerMany before group))).1.answer =
              .ok .done ∧
            (((after history).perform host (.change (.registerMany before group))).2.perform host
              (.change (.register schema group))).1.answer = .error e ∧
            ((after history).perform host (.change (.registerMany schemas group))).2 =
              ((after history).perform host (.change (.registerMany before group))).2 := by
  constructor
  · intro operation hbulk hfails
    obtain ⟨hanswer, hregistry, hcoherent⟩ :=
      matches_perform (coherent_after history) host operation
    rw [hanswer] at hfails
    have hsame := hregistry.trans (Registry.perform_fails hbulk hfails)
    exact ⟨hsame, run_congr hcoherent (coherent_after history) hsame⟩
  · intro schemas group e he
    obtain ⟨before, schema, rest, hsplit, hbefore, hfailing, hsame⟩ :=
      Registry.registerMany_error (Registry.answered_error he)
    refine ⟨before, schema, rest, hsplit, ?_, ?_, ?_⟩
    · rw [perform_change_answer, Registry.apply, Registry.apply.answered, hbefore]
      rfl
    · rw [perform_change_answer, perform_registerMany, Registry.apply, Registry.apply.answered,
        hfailing]
      rfl
    · rw [perform_registerMany, perform_registerMany, hsame]

open Sample in
/-- Another option under a dest that is taken is refused, alone and in a row. -/
theorem failure_leaves_no_trace_duplicate :
    (Operation.change (.register secretPort (some "api"))).Fails
        ((after [registering port (some "api")]).perform bareHost
          (.change (.register secretPort (some "api")))).1 ∧
      ((after [registering port (some "api")]).perform bareHost
          (.change (.register secretPort (some "api")))).2.registry =
        (after [registering port (some "api")]).registry ∧
      ∃ before schema rest,
        [Schema.ofName "host" Kind.text, secretPort] = before ++ schema :: rest ∧
          ((after [registering port (some "api")]).perform bareHost (.change
              (.registerMany [Schema.ofName "host" Kind.text, secretPort] (some "api")))).2 =
            ((after [registering port (some "api")]).perform bareHost (.change
              (.registerMany before (some "api")))).2 := by
  have htrace := failure_leaves_no_trace [registering port (some "api")] bareHost
  have hfails : (Operation.change (.register secretPort (some "api"))).Fails
      ((after [registering port (some "api")]).perform bareHost
        (.change (.register secretPort (some "api")))).1 := ⟨.duplicateOption "port", rfl⟩
  obtain ⟨before, schema, rest, hsplit, -, -, hsame⟩ :=
    htrace.2 [Schema.ofName "host" Kind.text, secretPort] (some "api") (.duplicateOption "port") rfl
  exact ⟨hfails, (htrace.1 _ rfl hfails).1, before, schema, rest, hsplit, hsame⟩

end Config

end LayeredConfig
