import LayeredConfig.Proofs.Failure
import LayeredConfig.Proofs.Groups

/-!
# A group by its name and as a whole

Options can be registered in a row with the name of their group or with the
group as a whole. Where the whole group has no title and no help of its own the
two come to the same, except for the moment at which the group is created: given
as a whole, before the first option, and given by its name, together with it. So
an empty row is told apart, and a row whose first option is refused for its name
may be.
-/

namespace LayeredConfig

namespace Registry

variable {r : Registry} {schema : Schema} {schemas : List Schema} {name : String}

theorem isSome_groupAt?_register (hname : schema.isReserved = false) :
    ((r.register schema (some name)).2.groupAt? name).isSome = true := by
  rw [register_eq_registerAt, groupAt?_registerAt, hname, if_neg Bool.false_ne_true]
  exact isSome_groupAt?_ensure r (Group.ofName name)

/-- An option with a name for callers creates its group all the same, so that the group may as well
have been created before. -/
theorem register_ensure (hname : schema.isReserved = false) :
    (r.ensure (Group.ofName name)).register schema (some name) =
      r.register schema (some name) := by
  rw [register, register, ensureNamed, ensureNamed,
    ensure_of_groupAt? (isSome_groupAt?_ensure r (Group.ofName name)), hname]
  rfl

/-- Creating the group before the first option makes no difference but that it is there at the
end. -/
theorem registerMany_ensure (r : Registry) (name : String) (schemas : List Schema) :
    (r.ensure (Group.ofName name)).registerMany (some name) schemas =
      ((r.registerMany (some name) schemas).1,
        (r.registerMany (some name) schemas).2.ensure (Group.ofName name)) := by
  induction schemas generalizing r with
  | nil => rfl
  | cons schema rest ih =>
    cases hname : schema.isReserved with
    | true =>
      -- A refused option ends both rows at once, before its group is looked at.
      have hrefused : ∀ s : Registry, (s.register schema (some name)).1 =
          .error (.illegalName schema.name) := by
        intro s
        rw [register, if_pos hname]
      rw [registerMany_cons_of_error (hrefused _), registerMany_cons_of_error (hrefused r)]
    | false =>
      have hsame : (r.ensure (Group.ofName name)).register schema (some name) =
          r.register schema (some name) := register_ensure hname
      cases hfirst : (r.register schema (some name)).1 with
      | error e =>
        rw [registerMany_cons_of_error (hsame ▸ hfirst), registerMany_cons_of_error hfirst]
      | ok isNew =>
        have hthere : (r.register schema (some name)).2.ensure (Group.ofName name) =
            (r.register schema (some name)).2 :=
          ensure_of_groupAt? (isSome_groupAt?_register hname)
        rw [registerMany_cons_of_ok (hsame ▸ hfirst), registerMany_cons_of_ok hfirst, hsame,
          ← ih, hthere]

theorem isSome_groupAt?_registerMany
    (h : (r.groupAt? name).isSome = true ∨
      ∃ first rest, schemas = first :: rest ∧ first.isReserved = false) :
    ((r.registerMany (some name) schemas).2.groupAt? name).isSome = true := by
  obtain hthere | ⟨first, rest, rfl, hname⟩ := h
  · exact (linked_groupsStay.registerMany r schemas (some name)).isSome hthere
  · have hcreated : ((r.register first (some name)).2.groupAt? name).isSome = true :=
      isSome_groupAt?_register hname
    cases hfirst : (r.register first (some name)).1 with
    | error e =>
      rw [register_error hfirst] at hcreated
      rw [registerMany_cons_of_error hfirst]
      exact hcreated
    | ok isNew =>
      rw [registerMany_cons_of_ok hfirst]
      exact (linked_groupsStay.registerMany _ rest (some name)).isSome hcreated

end Registry

namespace Config

theorem perform_registerManyIn (config : Config) (host : Host) (name : String)
    (schemas : List Schema) :
    config.perform host (.change (.registerManyIn schemas (Group.ofName name))) =
      ((config.perform host (.change (.registerMany schemas (some name)))).1,
        { registry := (config.perform host (.change
            (.registerMany schemas (some name)))).2.registry.ensure (Group.ofName name) }) := by
  have hmany : config.registry.registerManyIn (Group.ofName name) schemas =
      ((config.registry.registerMany (some name) schemas).1,
        (config.registry.registerMany (some name) schemas).2.ensure (Group.ofName name)) :=
    Registry.registerMany_ensure config.registry name schemas
  have hgiven : config.perform host (.change (.registerManyIn schemas (Group.ofName name))) =
      ({ answer := (fun _ => .done) <$>
          (config.registry.registerManyIn (Group.ofName name) schemas).1 },
        { registry := (config.registry.registerManyIn (Group.ofName name) schemas).2 }) := rfl
  rw [hgiven, hmany]
  rfl

/-- Registering a row of options with a group that has no title and no help of its own gives the
answer that registering it with the name of that group gives. It leaves the same options, files
and mode, and every other group as it leaves it; and it leaves the same configuration if the group
was there before or the first option has a name for callers. The two are told apart by an empty
row: it creates a group that is given as a whole, and none that is given by its name. -/
theorem bulk_forms_agree (history : List Step) (host : Host) (name : String)
    (schemas : List Schema) :
    let config := after history
    let given := config.perform host (.change (.registerManyIn schemas (Group.ofName name)))
    let named := config.perform host (.change (.registerMany schemas (some name)))
    given.1 = named.1 ∧
      (∀ dest group, given.2.registry.entryAt? dest group =
        named.2.registry.entryAt? dest group) ∧
      given.2.registry.installed = named.2.registry.installed ∧
      (∀ other, other ≠ name →
        given.2.registry.groupAt? other = named.2.registry.groupAt? other) ∧
      ((config.registry.groupAt? name).isSome = true ∨
          (∃ first rest, schemas = first :: rest ∧ first.isReserved = false) → given = named) ∧
      (schemas = [] → given.2.registry = config.registry.ensure (Group.ofName name) ∧
        named.2.registry = config.registry) := by
  intro config given named
  have hgiven : given = (named.1, { registry := named.2.registry.ensure (Group.ofName name) }) :=
    perform_registerManyIn config host name schemas
  have hregistry : given.2.registry = named.2.registry.ensure (Group.ofName name) := by
    rw [hgiven]
  refine ⟨?_, ?_, ?_, ?_, ?_, ?_⟩
  · rw [hgiven]
  · intro dest group
    rw [hregistry, Registry.entryAt?_ensure]
  · rw [hregistry, Registry.installed_ensure]
  · intro other hother
    have hne : ¬other = (Group.ofName name).name := hother
    rw [hregistry, Registry.groupAt?_ensure, if_neg hne, Option.or_none]
  · intro hthere
    have hensured : named.2.registry.ensure (Group.ofName name) = named.2.registry :=
      Registry.ensure_of_groupAt? (Registry.isSome_groupAt?_registerMany hthere)
    rw [hgiven, hensured]
    rfl
  · rintro rfl
    exact ⟨hregistry, rfl⟩

open Sample in
/-- A row that is refused at its second option, for a group that is not there. -/
theorem bulk_forms_agree_half_refused :
    let given := (after []).perform bareHost
      (.change (.registerManyIn [port, Schema.ofName "_token" Kind.text] (Group.ofName "web")))
    let named := (after []).perform bareHost
      (.change (.registerMany [port, Schema.ofName "_token" Kind.text] (some "web")))
    port.isReserved = false ∧ given.1.answer = .error (.illegalName "_token") ∧ given = named ∧
      given.2.registry.groupAt? "web" = some (Group.ofName "web") ∧
      given.2.registry.entryAt? "port" (some "web") = some { schema := port } := by
  obtain ⟨-, -, -, -, hsame, -⟩ := bulk_forms_agree [] bareHost "web"
    [port, Schema.ofName "_token" Kind.text]
  exact ⟨rfl, rfl, hsame (.inr ⟨_, _, rfl, rfl⟩), rfl, rfl⟩

open Sample in
/-- The two ways do not always leave the same registry: of an empty row, and of one whose first
option is refused for its name, a group that was given as a whole stays behind. -/
theorem bulk_forms_differ :
    ((after []).perform bareHost
        (.change (.registerManyIn [] (Group.ofName "api")))).2.registry ≠
      ((after []).perform bareHost (.change (.registerMany [] (some "api")))).2.registry ∧
      ((after []).perform bareHost (.change (.registerManyIn
          [Schema.ofName "_token" Kind.text] (Group.ofName "api")))).2.registry ≠
        ((after []).perform bareHost (.change (.registerMany
          [Schema.ofName "_token" Kind.text] (some "api")))).2.registry := by
  constructor
  · intro hsame
    have hgroup := congrArg (fun r : Registry => r.groupAt? "api") hsame
    cases hgroup
  · intro hsame
    have hgroup := congrArg (fun r : Registry => r.groupAt? "api") hsame
    cases hgroup

end Config

end LayeredConfig
