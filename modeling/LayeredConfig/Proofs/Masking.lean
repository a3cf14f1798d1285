import LayeredConfig.Proofs.Installed

/-!
# Masked registries

Masking takes out of a registry what must not be seen: of an option that is
marked secret the default, what replaces it and what the option is locked to. It
takes out the files too, which are looked at on their own.

Every change of a registry can be followed on the masked registry alone
(`Registry.masked_apply`). The values that a change gives to a secret option are
masked as well. Only how far a row of registrations gets must be told, since it
may stop at a secret option whose default is not the one known.
-/

namespace LayeredConfig

/-- The schema without the default of a secret option. -/
def Schema.masked (schema : Schema) : Schema :=
  if schema.secret then { schema with default := none } else schema

namespace Schema

variable (schema : Schema)

theorem masked_of_not_secret {schema : Schema} (h : schema.secret = false) :
    schema.masked = schema := by
  rw [masked, h]
  rfl

@[simp] theorem masked_name : schema.masked.name = schema.name := by
  rw [masked]
  split
  · rfl
  · rfl

@[simp] theorem masked_dest : schema.masked.dest = schema.dest := by
  rw [masked]
  split
  · rfl
  · rfl

@[simp] theorem masked_secret : schema.masked.secret = schema.secret := by
  rw [masked]
  split
  · rfl
  · rfl

@[simp] theorem masked_help : schema.masked.help = schema.help := by
  rw [masked]
  split
  · rfl
  · rfl

@[simp] theorem isReserved_masked : schema.masked.isReserved = schema.isReserved := by
  rw [isReserved, isReserved, masked_name]

@[simp] theorem masked_masked : schema.masked.masked = schema.masked := by
  cases hsecret : schema.secret with
  | false => rw [masked_of_not_secret hsecret, masked_of_not_secret hsecret]
  | true => simp [masked, hsecret]

end Schema

/-- What is known of an option without the values of a secret one. -/
def Entry.masked (entry : Entry) : Entry :=
  if entry.schema.secret then { schema := entry.schema.masked } else entry

namespace Entry

variable (entry : Entry)

theorem masked_of_not_secret {entry : Entry} (h : entry.schema.secret = false) :
    entry.masked = entry := by
  rw [masked, h]
  rfl

theorem masked_of_secret {entry : Entry} (h : entry.schema.secret = true) :
    entry.masked = { schema := entry.schema.masked } := by
  rw [masked, h]
  rfl

@[simp] theorem schema_masked : entry.masked.schema = entry.schema.masked := by
  cases hsecret : entry.schema.secret with
  | false => rw [masked_of_not_secret hsecret, Schema.masked_of_not_secret hsecret]
  | true => rw [masked_of_secret hsecret]

@[simp] theorem masked_masked : entry.masked.masked = entry.masked := by
  cases hsecret : entry.schema.secret with
  | false => rw [masked_of_not_secret hsecret, masked_of_not_secret hsecret]
  | true =>
    have hmasked : entry.masked.schema.secret = true := by simp [hsecret]
    rw [masked_of_secret hmasked, schema_masked, Schema.masked_masked, masked_of_secret hsecret]

theorem masked_ofSchema (schema : Schema) :
    ({ schema } : Entry).masked = { schema := schema.masked } := by
  cases hsecret : schema.secret with
  | false => rw [masked_of_not_secret hsecret, Schema.masked_of_not_secret hsecret]
  | true => rw [masked_of_secret hsecret]

theorem masked_fresh : entry.fresh.masked = entry.masked.fresh := by
  rw [fresh, masked_ofSchema, fresh, schema_masked]

theorem masked_change {f g : Entry → Entry} (hf : ∀ e, (f e).schema = e.schema)
    (hg : ∀ e, (g e).schema = e.schema) (h : entry.schema.secret = true ∨ f = g) :
    (f entry).masked = (g entry.masked).masked := by
  cases hsecret : entry.schema.secret with
  | false =>
    rw [hsecret] at h
    obtain rfl := h.resolve_left Bool.false_ne_true
    rw [masked_of_not_secret hsecret]
  | true =>
    have hleft : (f entry).schema.secret = true := by rw [hf, hsecret]
    have hright : (g entry.masked).schema.secret = true := by simp [hg, hsecret]
    rw [masked_of_secret hleft, masked_of_secret hright, hf, hg, schema_masked,
      Schema.masked_masked]

end Entry

/-- The options of a table without the values of secret ones. -/
def Table.masked (entries : Table Entry) : Table Entry :=
  entries.map fun _ => Entry.masked

namespace Table

variable (entries : Table Entry)

@[simp] theorem get?_masked (dest : String) :
    entries.masked.get? dest = (entries.get? dest).map Entry.masked :=
  get?_map _ entries dest

@[simp] theorem masked_masked : entries.masked.masked = entries.masked := by
  rw [masked, masked, map_map]
  simp only [Entry.masked_masked]

theorem masked_insert (dest : String) (entry : Entry) :
    (entries.insert dest entry).masked = entries.masked.insert dest entry.masked :=
  map_insert _ entries dest entry

theorem masked_foldl_erase (schemas : List Schema) :
    (schemas.foldl (fun t schema => t.erase schema.dest) entries).masked =
      (schemas.map Schema.masked).foldl (fun t schema => t.erase schema.dest) entries.masked := by
  induction schemas generalizing entries with
  | nil => rfl
  | cons schema rest ih =>
    rw [List.map_cons, List.foldl_cons, List.foldl_cons, ih, Schema.masked_dest, masked, map_erase]
    rfl

end Table

def Member.masked (m : Member) : Member :=
  { m with entries := m.entries.masked }

namespace Registry

variable (r : Registry)

/-- A registry without its files and without the values of secret options. -/
def masked : Registry where
  top := r.top.masked
  groups := r.groups.map fun _ => Member.masked
  validating := r.validating

@[simp] theorem validating_masked : r.masked.validating = r.validating := rfl

@[simp] theorem masked_masked : r.masked.masked = r.masked := by
  have hmember : ∀ m : Member, m.masked.masked = m.masked := fun m => by
    rw [Member.masked, Member.masked, Table.masked_masked]
  rw [masked, masked, Table.masked_masked, Table.map_map]
  simp only [hmember]

theorem contains_groups_masked (name : String) :
    r.masked.groups.contains name = r.groups.contains name :=
  Table.contains_map _ r.groups name

theorem entries?_masked (group : Option String) :
    r.masked.entries? group = (r.entries? group).map Table.masked := by
  cases group with
  | none => rfl
  | some name =>
    simp only [entries?, masked, Table.get?_map]
    cases r.groups.get? name with
    | none => rfl
    | some m => rfl

theorem entry?_masked (dest : String) (group : Option String) :
    r.masked.entry? dest group = (r.entry? dest group).map Entry.masked := by
  simp only [entries?_masked, entry?]
  cases r.entries? group with
  | error e => rfl
  | ok entries =>
    simp only [Except.map, Table.get?_masked]
    cases entries.get? dest with
    | none => rfl
    | some entry => rfl

@[simp] theorem entryAt?_masked (dest : String) (group : Option String) :
    r.masked.entryAt? dest group = (r.entryAt? dest group).map Entry.masked := by
  rw [entryAt?, entryAt?, entry?_masked]
  cases r.entry? dest group with
  | error e => rfl
  | ok entry => rfl

theorem masked_ensure (group : Group) : (r.ensure group).masked = r.masked.ensure group := by
  rw [ensure, ensure, contains_groups_masked]
  split
  · rfl
  · simp only [masked, Table.map_insert]
    rfl

theorem masked_setEntries (group : Option String) (entries : Table Entry) :
    (r.setEntries group entries).masked = r.masked.setEntries group entries.masked := by
  cases group with
  | none => rfl
  | some name =>
    simp only [setEntries, masked, Table.get?_map]
    cases r.groups.get? name with
    | none => rfl
    | some m =>
      simp only [Option.map_some, Table.map_insert]
      rfl

theorem masked_prepared (target : Option Group) :
    (r.prepared target).masked = r.masked.prepared target := by
  cases target with
  | none => rfl
  | some group => exact masked_ensure r group

/-- A registration leaves the same options behind, seen through the mask: whether the option that
is known already has the same default does not matter. -/
theorem masked_registerAt (schema : Schema) (target : Option Group) :
    (r.registerAt schema target).2.masked = (r.masked.registerAt schema.masked target).2 := by
  cases hname : schema.isReserved with
  | true => simp [registerAt, hname]
  | false =>
    obtain ⟨entries, hentries⟩ := exists_entries?_prepared r target
    have hmasked := entries?_masked (r.prepared target) (target.map Group.name)
    rw [hentries, masked_prepared] at hmasked
    have hat := entryAt?_masked r schema.dest (target.map Group.name)
    have hending := registers_registerAt r schema target
    have hending' := registers_registerAt r.masked schema.masked target
    generalize r.registerAt schema target = result at hending ⊢
    generalize r.masked.registerAt schema.masked target = result' at hending' ⊢
    -- Through the mask a place is taken in both registries or free in both, so that both add
    -- the option or neither does.
    cases hending with
    | reserved hreserved =>
      rw [hname] at hreserved
      cases hreserved
    | known _ hentry _ | duplicate _ hentry _ =>
      rw [hentry] at hat
      cases hending' with
      | reserved _ => rfl
      | known _ _ _ => rfl
      | duplicate _ _ _ => rfl
      | added _ hfree _ =>
        rw [Schema.masked_dest, hat] at hfree
        cases hfree
    | added _ hfree hprepared =>
      rw [hentries] at hprepared
      cases hprepared
      rw [hfree] at hat
      cases hending' with
      | reserved hreserved =>
        rw [Schema.isReserved_masked, hname] at hreserved
        cases hreserved
      | known _ hentry _ | duplicate _ hentry _ =>
        rw [Schema.masked_dest, hat] at hentry
        cases hentry
      | added _ _ hprepared =>
        rw [hmasked] at hprepared
        cases hprepared
        rw [masked_setEntries, masked_prepared, Table.masked_insert, Entry.masked_ofSchema,
          Schema.masked_dest]

theorem masked_register (schema : Schema) (group : Option String) :
    (r.register schema group).2.masked = (r.masked.register schema.masked group).2 := by
  rw [register_eq_registerAt, register_eq_registerAt, masked_registerAt]

theorem masked_unregister (schemas : List Schema) (group : Option String) :
    (r.unregister schemas group).2.masked =
      (r.masked.unregister (schemas.map Schema.masked) group).2 := by
  have hmasked := entries?_masked r group
  rw [unregister, unregister, hmasked]
  cases r.entries? group with
  | error e => rfl
  | ok entries =>
    show (r.setEntries group _).masked = r.masked.setEntries group _
    rw [masked_setEntries, Table.masked_foldl_erase]

theorem masked_modify {dest : String} {group : Option String} {f g : Entry → Entry}
    (h : ∀ entry, r.entryAt? dest group = some entry → (f entry).masked = (g entry.masked).masked) :
    (r.modify dest group f).2.masked = (r.masked.modify dest group g).2.masked := by
  have hat := entryAt?_masked r dest group
  have hmasked := entries?_masked r group
  obtain ⟨e, hnone, hcase⟩ | ⟨entries, entry, hentries, hentry, hcase⟩ :=
    modify_cases r dest group f
  · rw [hnone] at hat
    obtain ⟨e', -, hcase'⟩ | ⟨entries', entry', -, hentry', -⟩ := modify_cases r.masked dest group g
    · rw [hcase, hcase', masked_masked]
    · rw [hentry'] at hat
      cases hat
  · rw [hentry] at hat
    rw [hentries] at hmasked
    obtain ⟨e', hnone', -⟩ | ⟨entries', entry', hentries', hentry', hcase'⟩ :=
      modify_cases r.masked dest group g
    · rw [hnone'] at hat
      cases hat
    · rw [hentry'] at hat
      cases hat
      rw [hentries'] at hmasked
      cases hmasked
      rw [hcase, hcase', masked_setEntries, masked_setEntries, Table.masked_insert,
        Table.masked_insert, masked_masked, Table.masked_masked, h entry hentry]

theorem masked_clear : r.clear.masked = r.masked.clear := rfl

theorem masked_reset : r.reset.masked = r.masked.reset := by
  have hentries : ∀ entries : Table Entry,
      (entries.map fun _ => Entry.fresh).masked = entries.masked.map fun _ => Entry.fresh := by
    intro entries
    rw [Table.masked, Table.map_map, Table.masked, Table.map_map]
    simp only [Entry.masked_fresh]
  simp only [reset, clear, masked, hentries, Table.map_map, Member.masked]

end Registry

/-- What stands for a value that is masked. -/
def maskedText : String := "****"

/-- A value that is given to the option at a place, masked if the option is secret. -/
def Registry.maskedValue (r : Registry) (dest : String) (group : Option String) (value : Value) :
    Value :=
  match r.entryAt? dest group with
  | some entry => if entry.schema.secret then .string maskedText else value
  | none => value

/-- A change without the values that it gives to secret options. -/
def Change.masked (r : Registry) : Change → Change
  | register schema group => register schema.masked group
  | registerIn schema group => registerIn schema.masked group
  | registerMany schemas group => registerMany (schemas.map Schema.masked) group
  | registerManyIn schemas group => registerManyIn (schemas.map Schema.masked) group
  | unregister schemas group => unregister (schemas.map Schema.masked) group
  | setDefault dest value group => setDefault dest (r.maskedValue dest group value) group
  | lock dest value group => lock dest (r.maskedValue dest group value) group
  | change => change

namespace Registry

/-- How many options are registered before one of them fails. -/
def registered (r : Registry) (group : Option String) : List Schema → Nat
  | [] => 0
  | schema :: rest =>
    match r.register schema group with
    | (.error _, _) => 0
    | (.ok _, r') => r'.registered group rest + 1

/-- Register options one after the other, whether they fail or not. -/
def registerAll (r : Registry) (group : Option String) (schemas : List Schema) : Registry :=
  schemas.foldl (fun s schema => (s.register schema group).2) r

/-- How far a change gets that may stop on the way. -/
def reach (r : Registry) : Change → Nat
  | .registerMany schemas group => r.registered group schemas
  | .registerManyIn schemas group => (r.ensure group).registered (some group.name) schemas
  | _ => 0

/-- Make a change that gets so far. -/
def advance (r : Registry) (reach : Nat) : Change → Registry
  | .registerMany schemas group => r.registerAll group (schemas.take reach)
  | .registerManyIn schemas group =>
    (r.ensure group).registerAll (some group.name) (schemas.take reach)
  | change => (r.apply change).2

variable (r : Registry)

theorem registered_cons_of_ok {schema : Schema} {group : Option String} {isNew : Bool}
    (h : (r.register schema group).1 = .ok isNew) (rest : List Schema) :
    r.registered group (schema :: rest) =
      (r.register schema group).2.registered group rest + 1 := by
  rw [registered]
  generalize r.register schema group = result at h
  obtain ⟨answer, r'⟩ := result
  cases h
  rfl

theorem registered_cons_of_error {schema : Schema} {group : Option String} {e : ConfigError}
    (h : (r.register schema group).1 = .error e) (rest : List Schema) :
    r.registered group (schema :: rest) = 0 := by
  rw [registered]
  generalize r.register schema group = result at h
  obtain ⟨answer, r'⟩ := result
  cases h
  rfl

theorem registerMany_eq_registerAll (group : Option String) (schemas : List Schema) :
    (r.registerMany group schemas).2 =
      r.registerAll group (schemas.take (r.registered group schemas)) := by
  induction schemas generalizing r with
  | nil => rfl
  | cons schema rest ih =>
    cases hfirst : (r.register schema group).1 with
    | error e =>
      rw [registerMany_cons_of_error hfirst, registered_cons_of_error r hfirst]
      rfl
    | ok isNew =>
      rw [registerMany_cons_of_ok hfirst, registered_cons_of_ok r hfirst, ih]
      rfl

/-- A change does what getting as far as it does comes to. -/
theorem apply_eq_advance (change : Change) :
    (r.apply change).2 = r.advance (r.reach change) change := by
  cases change with
  | registerMany schemas group => exact registerMany_eq_registerAll r group schemas
  | registerManyIn schemas group =>
    exact registerMany_eq_registerAll (r.ensure group) (some group.name) schemas
  | _ => rfl

theorem masked_registerAll (group : Option String) (schemas : List Schema) :
    (r.registerAll group schemas).masked =
      r.masked.registerAll group (schemas.map Schema.masked) := by
  induction schemas generalizing r with
  | nil => rfl
  | cons schema rest ih =>
    show ((r.register schema group).2.registerAll group rest).masked = _
    rw [ih, masked_register]
    rfl

theorem masked_schemas (schemas : List Schema) :
    (schemas.map Schema.masked).map Schema.masked = schemas.map Schema.masked := by
  rw [List.map_map]
  congr 1
  funext schema
  exact schema.masked_masked

theorem masked_update {f : Entry → Entry} (hf : ∀ e, (f e).schema = e.schema) (dest : String)
    (group : Option String) :
    (r.modify dest group f).2.masked = (r.masked.modify dest group f).2.masked :=
  masked_modify r fun entry _ => entry.masked_change hf hf (.inr rfl)

theorem masked_assign {f : Value → Entry → Entry} (hf : ∀ v e, (f v e).schema = e.schema)
    (dest : String) (group : Option String) (value : Value) :
    (r.modify dest group (f value)).2.masked =
      (r.masked.modify dest group (f (r.maskedValue dest group value))).2.masked := by
  refine masked_modify r fun entry hentry => entry.masked_change (hf value) (hf _) ?_
  rw [maskedValue, hentry]
  cases hsecret : entry.schema.secret with
  | true => exact .inl rfl
  | false => exact .inr (by simp [hsecret])

theorem masked_advance (reach : Nat) (change : Change) :
    (r.advance reach change).masked =
      (r.masked.advance reach (change.masked r)).masked := by
  cases change with
  | register schema group =>
    show (r.register schema group).2.masked = (r.masked.register schema.masked group).2.masked
    rw [masked_register, masked_register, masked_masked, Schema.masked_masked]
  | registerIn schema group =>
    show (r.registerAt schema (some group)).2.masked =
      (r.masked.registerAt schema.masked (some group)).2.masked
    rw [masked_registerAt, masked_registerAt, masked_masked, Schema.masked_masked]
  | registerMany schemas group =>
    show (r.registerAll group (schemas.take reach)).masked =
      (r.masked.registerAll group ((schemas.map Schema.masked).take reach)).masked
    rw [masked_registerAll, masked_registerAll, masked_masked, ← List.map_take, masked_schemas]
  | registerManyIn schemas group =>
    show ((r.ensure group).registerAll (some group.name) (schemas.take reach)).masked =
      ((r.masked.ensure group).registerAll (some group.name)
        ((schemas.map Schema.masked).take reach)).masked
    rw [masked_registerAll, masked_registerAll, masked_ensure, masked_ensure, masked_masked,
      ← List.map_take, masked_schemas]
  | registerGroup group =>
    show (r.ensure group).masked = (r.masked.ensure group).masked
    rw [masked_ensure, masked_ensure, masked_masked]
  | unregister schemas group =>
    show (r.unregister schemas group).2.masked =
      (r.masked.unregister (schemas.map Schema.masked) group).2.masked
    rw [masked_unregister, masked_unregister, masked_masked, masked_schemas]
  | setDefault dest value group =>
    exact masked_assign r (f := fun v e => { e with override := some v }) (fun _ _ => rfl) dest
      group value
  | clearDefault dest group =>
    exact masked_update r (f := fun e => { e with override := none }) (fun _ => rfl) dest group
  | lock dest value group =>
    exact masked_assign r (f := fun v e => { e with locked := some v }) (fun _ _ => rfl) dest
      group value
  | unlock dest group =>
    exact masked_update r (f := fun e => { e with locked := none }) (fun _ => rfl) dest group
  | clear =>
    show r.clear.masked = r.masked.clear.masked
    rw [masked_clear, masked_clear, masked_masked]
  | reset =>
    show r.reset.masked = r.masked.reset.masked
    rw [masked_reset, masked_reset, masked_masked]

/-- Seen through the mask, two registries stay equal under changes that are equal through the mask
and get equally far. -/
theorem masked_apply {r r' : Registry} (hmasked : r.masked = r'.masked) {change change' : Change}
    (hchange : change.masked r = change'.masked r') (hreach : r.reach change = r'.reach change') :
    (r.apply change).2.masked = (r'.apply change').2.masked := by
  rw [apply_eq_advance, masked_advance, apply_eq_advance r', masked_advance r', hmasked, hchange,
    hreach]

end Registry

end LayeredConfig
