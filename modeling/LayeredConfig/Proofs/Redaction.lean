import LayeredConfig.Proofs.Alike
import LayeredConfig.Proofs.Order

/-!
# Secrets in reports

Of an option that is marked secret a report shows only whether it has a value.
So a report on one of two alike registries is a report on the other, as far as it
shows options that are not secret, and secret options that have a value in both
or in neither (`Registry.Conceals`). Every report consists of what is shown at
each place (`Report.shown`), and nothing else of a value goes into it.

Runs that differ in secrets lead to alike registries if their operations get
equally far. What a report shows where a secret option cannot be read is left
open here.
-/

namespace LayeredConfig

/-- The line of a dump that shows a text for an option. -/
def Report.line (dest : String) (group : Option String) (text : String) : String :=
  padded 30 (key dest group) ++ " = " ++ text

theorem Entry.same_of_masked {entry entry' : Entry} (h : entry.masked = entry'.masked) :
    entry.schema.dest = entry'.schema.dest ∧ entry.schema.secret = entry'.schema.secret ∧
      entry.schema.help = entry'.schema.help := by
  have hschema : entry.schema.masked = entry'.schema.masked := by
    rw [← schema_masked, h, schema_masked]
  refine ⟨?_, ?_, ?_⟩
  · rw [← Schema.masked_dest, hschema, Schema.masked_dest]
  · rw [← Schema.masked_secret, hschema, Schema.masked_secret]
  · rw [← Schema.masked_help, hschema, Schema.masked_help]

theorem Entry.eq_of_masked {entry entry' : Entry} (h : entry.masked = entry'.masked)
    (hsecret : entry.schema.secret = false) : entry' = entry := by
  have hsecret' : entry'.schema.secret = false := by rw [← (same_of_masked h).2.1, hsecret]
  rw [masked_of_not_secret hsecret, masked_of_not_secret hsecret'] at h
  exact h.symm

/-- Two dumps of the same options have a line for each of them, in order, and show the same text
for those at pinned places. -/
inductive Report.ShowsSame (pinned : String → Option String → Prop) :
    List (Option String × Entry) → List String → List String → Prop
  | nil : ShowsSame pinned [] [] []
  | cons {group : Option String} {entry : Entry} {options : List (Option String × Entry)}
      {lines lines' : List String} {text text' : String}
      (htext : pinned entry.schema.dest group → text = text')
      (hrest : ShowsSame pinned options lines lines') :
      ShowsSame pinned ((group, entry) :: options)
        (Report.line entry.schema.dest group text :: lines)
        (Report.line entry.schema.dest group text' :: lines')

namespace Report.ShowsSame

variable {pinned pinned' : String → Option String → Prop}
  {options : List (Option String × Entry)} {lines lines' : List String}

theorem imp (h : ShowsSame pinned options lines lines')
    (himp : ∀ dest group, pinned' dest group → pinned dest group) :
    ShowsSame pinned' options lines lines' := by
  induction h with
  | nil => exact .nil
  | cons htext _ ih => exact .cons (fun hpinned => htext (himp _ _ hpinned)) ih

theorem eq (h : ShowsSame pinned options lines lines')
    (hall : ∀ dest group, pinned dest group) : lines = lines' := by
  induction h with
  | nil => rfl
  | cons htext _ ih => rw [htext (hall _ _), ih]

end Report.ShowsSame

namespace Registry

/-- The option at a place is not secret, or it has a value in both registries or in neither. -/
def Conceals (r r' : Registry) (dest : String) (group : Option String) : Prop :=
  ∀ entry, r.entryAt? dest group = some entry → entry.schema.secret = true →
    (r.read dest group = .ok none ∧ r'.read dest group = .ok none) ∨
      ∃ value value', r.read dest group = .ok (some value) ∧
        r'.read dest group = .ok (some value')

/-- No option that is not secret has a name at a hidden place. -/
def Avoids (r : Registry) (hidden : String → String → Bool) : Prop :=
  ∀ dest group entry, r.entryAt? dest group = some entry → entry.schema.secret = false →
    entry.Avoids hidden group

/-- An option of one registry, with its group, and the same option of another. -/
structure SameOption (r : Registry) (option option' : Option String × Entry) : Prop where
  known : r.entryAt? option.2.schema.dest option.1 = some option.2
  group : option.1 = option'.1
  masked : option.2.masked = option'.2.masked

variable {hidden : String → String → Bool} {r r' : Registry} {dest : String}
  {group : Option String} {entry : Entry}

section Reports

variable (r) (group) (entry) (rest : List (Option String × Entry))

theorem entries_cons_shown :
    Report.entries (m := Id) r.read ((group, entry) :: rest) =
      match Report.shown entry.schema.secret <$> r.read entry.schema.dest group with
      | .error e => .error e
      | .ok text =>
        Except.map ((Report.key entry.schema.dest group, text) :: ·)
          (Report.entries (m := Id) r.read rest) := by
  rw [entries_cons]
  cases r.read entry.schema.dest group with
  | error e => rfl
  | ok value => rfl

theorem dumpLines_cons_shown :
    Report.dumpLines (m := Id) r.read ((group, entry) :: rest) =
      Report.line entry.schema.dest group
        (match Report.shown entry.schema.secret <$> r.read entry.schema.dest group with
        | .ok text => text
        | .error e => "<error: " ++ e.message ++ ">") ::
      Report.dumpLines (m := Id) r.read rest := by
  rw [dumpLines_cons]
  cases r.read entry.schema.dest group with
  | error e => rfl
  | ok value => rfl

theorem make_get_of_error {key : String} {e : ConfigError}
    (h : r.entry? (Report.place r key).1 (Report.place r key).2 = .error e) :
    Report.make (m := Id) r.read r (.get key) = .error e := by
  simp only [Report.make, h]
  rfl

theorem make_get_of_ok {key : String} {entry : Entry}
    (h : r.entry? (Report.place r key).1 (Report.place r key).2 = .ok entry) :
    Report.make (m := Id) r.read r (.get key) =
      (fun text => Report.option key text entry.schema.help) <$>
        (Report.shown entry.schema.secret <$>
          r.read (Report.place r key).1 (Report.place r key).2) := by
  simp only [Report.make, h]
  show (fun value => Report.option key (Report.shown entry.schema.secret value)
    entry.schema.help) <$> r.read (Report.place r key).1 (Report.place r key).2 = _
  cases r.read (Report.place r key).1 (Report.place r key).2 with
  | error e => rfl
  | ok value => rfl

end Reports

theorem all_masked (r : Registry) :
    r.masked.all = r.all.map fun option => (option.1, option.2.masked) := by
  simp only [all, masked, Table.map, Table.masked, Table.values, Member.masked, List.map_append,
    List.map_map, List.map_flatMap, List.flatMap_map, Function.comp_def]

namespace Alike

theorem entryAt? (h : r.Alike hidden r') (dest : String) (group : Option String) :
    (r.entryAt? dest group).map Entry.masked = (r'.entryAt? dest group).map Entry.masked := by
  rw [← entryAt?_masked, h.masked, entryAt?_masked]

theorem entry?_error (h : r.Alike hidden r') {e : ConfigError}
    (herror : r.entry? dest group = .error e) : r'.entry? dest group = .error e := by
  have hentry := entry?_masked r dest group
  rw [h.masked, entry?_masked, herror] at hentry
  cases hother : r'.entry? dest group with
  | error e' =>
    rw [hother] at hentry
    cases hentry
    rfl
  | ok entry =>
    rw [hother] at hentry
    cases hentry

theorem place (h : r.Alike hidden r') (key : String) :
    Report.place r key = Report.place r' key := by
  have hcontains : ∀ name, r.groups.contains name = r'.groups.contains name := fun name => by
    rw [← contains_groups_masked, h.masked, contains_groups_masked]
  simp only [Report.place, hcontains]

/-- Alike registries have the same options in the same order. -/
theorem all (h : r.Alike hidden r') (hkeyed : r.Keyed) :
    List.Forall₂ r.SameOption r.all r'.all := by
  have hmap : List.Forall₂ Eq (r.all.map fun option => (option.1, option.2.masked))
      (r'.all.map fun option => (option.1, option.2.masked)) := by
    rw [← all_masked, ← all_masked, h.masked]
    exact List.forall₂_refl _
  rw [List.forall₂_map_left_iff, List.forall₂_map_right_iff] at hmap
  refine ((List.forall₂_and_left _ _).2 ⟨fun option hmem => hmem, hmap⟩).imp
    fun option option' hpair => ?_
  obtain ⟨hmem, heq⟩ := hpair
  obtain ⟨hgroup, hmasked⟩ := Prod.mk.inj heq
  exact ⟨hkeyed.mem_all_iff.1 hmem, hgroup, hmasked⟩

theorem fileValue? (h : r.Alike hidden r') (havoids : entry.Avoids hidden group) :
    entry.fileValue? group r.snapshot = entry.fileValue? group r'.snapshot := by
  have hsnapshot := h.snapshot
  generalize r.snapshot = snapshot at hsnapshot ⊢
  generalize r'.snapshot = snapshot' at hsnapshot ⊢
  cases hsnapshot with
  | none => rfl
  | some halike => exact halike.fileValue? havoids

theorem read (h : r.Alike hidden r') (hentry : r.entryAt? dest group = some entry)
    (hsecret : entry.schema.secret = false) (havoids : entry.Avoids hidden group) :
    r.read dest group = r'.read dest group := by
  have hat := h.entryAt? dest group
  rw [hentry, Option.map_some, eq_comm, Option.map_eq_some_iff] at hat
  obtain ⟨entry', hentry', hmasked⟩ := hat
  obtain rfl := Entry.eq_of_masked hmasked.symm hsecret
  rw [Registry.read, Registry.read, entry?_eq_ok_iff.2 hentry, entry?_eq_ok_iff.2 hentry']
  simp only [Entry.resolve, h.fileValue? havoids, h.validating]

theorem shown (h : r.Alike hidden r') (hvisible : r.Avoids hidden)
    (hentry : r.entryAt? dest group = some entry) (hconceals : r.Conceals r' dest group) :
    Report.shown entry.schema.secret <$> r.read dest group =
      Report.shown entry.schema.secret <$> r'.read dest group := by
  cases hsecret : entry.schema.secret with
  | false => rw [h.read hentry hsecret (hvisible dest group entry hentry hsecret)]
  | true =>
    obtain ⟨hread, hread'⟩ | ⟨value, value', hread, hread'⟩ := hconceals entry hentry hsecret
    · rw [hread, hread']
    · rw [hread, hread']
      rfl

theorem entries (h : r.Alike hidden r') (hvisible : r.Avoids hidden)
    {options options' : List (Option String × Entry)}
    (hoptions : List.Forall₂ r.SameOption options options')
    (hconceals : ∀ dest group, r.Conceals r' dest group) :
    Report.entries (m := Id) r.read options = Report.entries (m := Id) r'.read options' := by
  induction hoptions with
  | nil => rfl
  | @cons option option' rest rest' hsame _ ih =>
    obtain ⟨group, entry⟩ := option
    obtain ⟨group', entry'⟩ := option'
    obtain ⟨hentry, rfl, hmasked⟩ := hsame
    obtain ⟨hdest, hsecret, -⟩ := Entry.same_of_masked hmasked
    have hshown := h.shown hvisible hentry (hconceals _ _)
    rw [entries_cons_shown, entries_cons_shown, ih]
    simp only at hshown hdest hsecret
    rw [hshown, hdest, hsecret]

theorem dumpLines (h : r.Alike hidden r') (hvisible : r.Avoids hidden)
    {options options' : List (Option String × Entry)}
    (hoptions : List.Forall₂ r.SameOption options options') :
    Report.ShowsSame (r.Conceals r') options (Report.dumpLines (m := Id) r.read options)
      (Report.dumpLines (m := Id) r'.read options') := by
  induction hoptions with
  | nil => exact .nil
  | @cons option option' rest rest' hsame _ ih =>
    obtain ⟨group, entry⟩ := option
    obtain ⟨group', entry'⟩ := option'
    obtain ⟨hentry, rfl, hmasked⟩ := hsame
    obtain ⟨hdest, hsecret, -⟩ := Entry.same_of_masked hmasked
    rw [dumpLines_cons_shown, dumpLines_cons_shown]
    simp only at hdest hsecret
    rw [← hdest, ← hsecret]
    refine .cons (fun hconceals => ?_) ih
    have hshown := h.shown hvisible hentry hconceals
    simp only at hshown
    rw [hshown]

theorem make_get (h : r.Alike hidden r') (hvisible : r.Avoids hidden) {key : String}
    (hconceals : r.Conceals r' (Report.place r key).1 (Report.place r key).2) :
    Report.make (m := Id) r.read r (.get key) = Report.make (m := Id) r'.read r' (.get key) := by
  have hplace := h.place key
  cases hentry : r.entry? (Report.place r key).1 (Report.place r key).2 with
  | error e =>
    have hentry' := h.entry?_error hentry
    rw [hplace] at hentry'
    rw [make_get_of_error r hentry, make_get_of_error r' hentry']
  | ok entry =>
    have hknown := entry?_eq_ok_iff.1 hentry
    have hat := h.entryAt? (Report.place r key).1 (Report.place r key).2
    rw [hknown, Option.map_some, eq_comm, Option.map_eq_some_iff] at hat
    obtain ⟨entry', hknown', hmasked⟩ := hat
    obtain ⟨-, hsecret, hhelp⟩ := Entry.same_of_masked hmasked
    have hshown := h.shown hvisible hknown hconceals
    have hentry' := entry?_eq_ok_iff.2 hknown'
    rw [hplace] at hentry' hshown
    rw [make_get_of_ok r hentry, make_get_of_ok r' hentry', hsecret, hhelp, hplace, hshown]

end Alike

theorem Keyed.mem_all (h : r.Keyed) (hentry : r.entry? dest group = .ok entry) :
    (group, entry) ∈ r.all := by
  rw [entry?_eq_ok_iff] at hentry
  rw [h.mem_all_iff, (h dest group entry hentry).dest_eq]
  exact hentry

end Registry

namespace Config

/-- Two runs differ in secrets only: their operations are equal once the values given to secret
options are masked, and their files assign the same but at hidden places, which no option at the
end reads that is not secret. -/
structure DifferInSecrets (hidden : String → String → Bool) (history history' : List Step) :
    Prop where
  operations : ({} : Registry).maskedRun history = ({} : Registry).maskedRun history'
  hosts : List.Forall₂ (fun step step' => step.host.Alike hidden step'.host) history history'
  visible : ∀ dest group entry, (after history).registry.entry? dest group = .ok entry →
    entry.schema.secret = false → entry.Avoids hidden group

/-- The option at a place is not secret, or it reads as having a value in both configurations, or
as having none in either. -/
def Conceals (config config' : Config) (dest : String) (group : Option String) : Prop :=
  ∀ entry, config.registry.entry? dest group = .ok entry → entry.schema.secret = true →
    (((read dest group).run config).1 = .ok none ∧
        ((read dest group).run config').1 = .ok none) ∨
      ∃ value value', ((read dest group).run config).1 = .ok (some value) ∧
        ((read dest group).run config').1 = .ok (some value')

/-- Two dumps have one event for each option, between the same others, and differ in the text for
options only that are not concealed. -/
def SameDump (config config' : Config) (level : Level) (events events' : List Event) : Prop :=
  ∃ head tail lines lines',
    Report.ShowsSame (config.Conceals config') config.registry.all lines lines' ∧
    events = (head ++ lines ++ tail).map (fun line => { level, message := line }) ∧
    events' = (head ++ lines' ++ tail).map fun line => { level, message := line }

theorem conceals_iff {config config' : Config} (h : config.Coherent) (h' : config'.Coherent)
    (dest : String) (group : Option String) :
    config.Conceals config' dest group ↔
      config.registry.Conceals config'.registry dest group := by
  have hread := (gives_read _ dest group config h rfl).answer
  have hread' := (gives_read _ dest group config' h' rfl).answer
  rw [Conceals, Registry.Conceals, hread, hread']
  simp only [Registry.entry?_eq_ok_iff]

/-- Dumps of alike registries differ in options only that are not concealed. -/
theorem sameDump_dump {hidden : String → String → Bool} {config config' : Config}
    (h : config.Coherent) (h' : config'.Coherent)
    (halike : config.registry.Alike hidden config'.registry)
    (hvisible : config.registry.Avoids hidden) (hkeyed : config.registry.Keyed) (level : Level) :
    config.SameDump config' level ((dump level).run config).1 ((dump level).run config').1 := by
  have hlines := halike.dumpLines hvisible (halike.all hkeyed)
  rw [(gives_dump _ level config h rfl).answer, (gives_dump _ level config' h' rfl).answer,
    Report.dump, Report.dump, halike.files]
  exact ⟨_, _, _, _, hlines.imp fun dest group => (conceals_iff h h' dest group).1, rfl, rfl⟩

/-- If the operations of two runs that differ in secrets get equally far, every report at the end
is the same, as far as it shows options that are not secret and secret options that have a value
after both runs or after neither. -/
theorem secrets_concealed {hidden : String → String → Bool} {history history' : List Step}
    (hdiffer : DifferInSecrets hidden history history')
    (hprogress : ({} : Registry).progressRun history = ({} : Registry).progressRun history') :
    (∀ key, (after history).Conceals (after history')
        (Report.place (after history).registry key).1
        (Report.place (after history).registry key).2 →
      ((handle (.get key)).run (after history)).1 =
        ((handle (.get key)).run (after history')).1) ∧
      (∀ level, (after history).SameDump (after history') level
        ((dump level).run (after history)).1 ((dump level).run (after history')).1) ∧
      ((∀ dest group, (after history).Conceals (after history') dest group) →
        ((handle .list).run (after history)).1 = ((handle .list).run (after history')).1 ∧
          ∀ level, ((dump level).run (after history)).1 =
            ((dump level).run (after history')).1) := by
  have hcoherent := coherent_after history
  have hcoherent' := coherent_after history'
  have hkeyed := keyed_after history
  have halike : (after history).registry.Alike hidden (after history').registry := by
    rw [registry_after, registry_after]
    exact Registry.alike_run (Registry.alike_empty hidden) hdiffer.hosts hdiffer.operations
      hprogress
  have hvisible := hdiffer.visible
  clear hdiffer
  generalize after history = config at *
  generalize after history' = config' at *
  have havoids : config.registry.Avoids hidden := fun dest group entry hentry =>
    hvisible dest group entry (Registry.entry?_eq_ok_iff.2 hentry)
  have hdumps := sameDump_dump hcoherent hcoherent' halike havoids hkeyed
  have hhandle : ∀ (c : Config), c.Coherent → ∀ action, ((handle action).run c).1 =
      Report.make (m := Id) c.registry.read c.registry action := fun c hc action =>
    (gives_handle _ action c hc rfl).answer
  refine ⟨fun key hconceals => ?_, hdumps, fun hconceals => ⟨?_, fun level => ?_⟩⟩
  · rw [hhandle config hcoherent, hhandle config' hcoherent']
    exact halike.make_get havoids ((conceals_iff hcoherent hcoherent' _ _).1 hconceals)
  · rw [hhandle config hcoherent, hhandle config' hcoherent']
    have hentries := halike.entries havoids (halike.all hkeyed) fun dest group =>
      (conceals_iff hcoherent hcoherent' dest group).1 (hconceals dest group)
    show Except.map Report.listing _ = Except.map Report.listing _
    rw [hentries]
  · obtain ⟨head, tail, lines, lines', hlines, hdump, hdump'⟩ := hdumps level
    rw [hdump, hdump', hlines.eq hconceals]

end Config

namespace Sample

/-- A secret option. -/
def pin : Schema :=
  { Schema.ofName "pin" (.integer none none) with secret := true }

/-- A secret option that a parse checks, and that has a value without files. -/
def checkedPin : Schema :=
  { pin with required := true, default := some (.integer 5) }

def hostName : Schema :=
  { Schema.ofName "host" Kind.text with default := some (.string "here") }

/-- A host on which every path leads to a file that assigns both options. -/
def pinnedHost (text : String) : Host where
  cwd := some "/"
  home := some "/"
  platform := fun _ => none
  read := fun _ => .content ("[DEFAULT]\npin = " ++ text ++ "\nhost = there\n")
  isFile := fun _ => true

/-- Both options are registered, and the file is parsed. -/
def pinning (schema : Schema) (text : String) : List Step :=
  [registering schema none, registering hostName none,
    ⟨pinnedHost text, .parse ["/a.conf"] false⟩]

/-- Where the secret option is assigned. -/
def pinPlace (name key : String) : Bool :=
  name = defaultSection && key = "pin"

/-- Runs over files that assign a different text to the secret option. -/
theorem differ_pinning {schema : Schema} {text text' : String} (hsecret : schema.secret = true)
    (hoperations : ({} : Registry).maskedRun (pinning schema text) =
      ({} : Registry).maskedRun (pinning schema text'))
    (hitems : readItems ("[DEFAULT]\npin = " ++ text ++ "\nhost = there\n") =
      .ok [.header "DEFAULT", .assignment "DEFAULT" "pin" text,
        .assignment "DEFAULT" "host" "there"])
    (hitems' : readItems ("[DEFAULT]\npin = " ++ text' ++ "\nhost = there\n") =
      .ok [.header "DEFAULT", .assignment "DEFAULT" "pin" text',
        .assignment "DEFAULT" "host" "there"])
    (hall : (Config.after (pinning schema text)).registry.all =
      [(none, { schema := hostName }), (none, { schema })]) :
    Config.DifferInSecrets pinPlace (pinning schema text) (pinning schema text') := by
  have hfiles : (pinnedHost text).Alike pinPlace (pinnedHost text') :=
    .of_content rfl rfl (fun _ => rfl) (fun _ => rfl) hitems hitems' rfl
  refine ⟨hoperations, .cons (.refl pinPlace bareHost) (.cons (.refl pinPlace bareHost)
    (.cons hfiles .nil)), ?_⟩
  intro dest group entry hentry hpublic
  have hmem := (Config.keyed_after _).mem_all hentry
  rw [hall] at hmem
  obtain heq | heq := List.mem_pair.1 hmem
  · cases heq
    intro key hkey
    obtain rfl | rfl := List.mem_pair.1 hkey
    · rfl
    · rfl
  · cases heq
    rw [hsecret] at hpublic
    cases hpublic

theorem eq_pin_of_secret {history : List Step} {schema : Schema} (hname : schema.dest = "pin")
    (hall : (Config.after history).registry.all =
      [(none, { schema := hostName }), (none, { schema })])
    {dest : String} {group : Option String} {entry : Entry}
    (hentry : (Config.after history).registry.entry? dest group = .ok entry)
    (hsecret : entry.schema.secret = true) : dest = "pin" ∧ group = none := by
  have hmem := (Config.keyed_after history).mem_all hentry
  have hbelongs := Config.keyed_after history dest group entry (Registry.entry?_eq_ok_iff.1 hentry)
  rw [hall] at hmem
  obtain heq | heq := List.mem_pair.1 hmem
  · cases heq
    cases hsecret
  · cases heq
    exact ⟨hbelongs.dest_eq.symm.trans hname, rfl⟩

theorem conceals_pinning {history history' : List Step} {schema : Schema}
    (hname : schema.dest = "pin")
    (hall : (Config.after history).registry.all =
      [(none, { schema := hostName }), (none, { schema })])
    {value value' : Value}
    (hread : ((Config.read "pin" none).run (Config.after history)).1 = .ok (some value))
    (hread' : ((Config.read "pin" none).run (Config.after history')).1 = .ok (some value')) :
    ∀ dest group, (Config.after history).Conceals (Config.after history') dest group := by
  intro dest group entry hentry hsecret
  obtain ⟨rfl, rfl⟩ := eq_pin_of_secret hname hall hentry hsecret
  exact .inr ⟨value, value', hread, hread'⟩

end Sample

namespace Config

open Sample

theorem differ_seven_eight : DifferInSecrets pinPlace (pinning pin "7") (pinning pin "8") :=
  differ_pinning rfl rfl rfl rfl rfl

theorem differ_one_two : DifferInSecrets pinPlace (pinning pin "one") (pinning pin "two") :=
  differ_pinning rfl rfl rfl rfl rfl

theorem differ_seven_oops :
    DifferInSecrets pinPlace (pinning checkedPin "7") (pinning checkedPin "oops") :=
  differ_pinning rfl rfl rfl rfl rfl

/-- Two values of a secret option, both shown in the same way. -/
theorem secrets_concealed_pin :
    ((read "pin" none).run (after (pinning pin "7"))).1 = .ok (some (.integer 7)) ∧
      ((read "pin" none).run (after (pinning pin "8"))).1 = .ok (some (.integer 8)) ∧
      ((handle (.get "pin")).run (after (pinning pin "7"))).1 =
        ((handle (.get "pin")).run (after (pinning pin "8"))).1 ∧
      ((handle .list).run (after (pinning pin "7"))).1 =
        ((handle .list).run (after (pinning pin "8"))).1 := by
  have hall : (after (pinning pin "7")).registry.all =
      [(none, { schema := hostName }), (none, { schema := pin })] := rfl
  have hread : ((read "pin" none).run (after (pinning pin "7"))).1 = .ok (some (.integer 7)) := rfl
  have hread' : ((read "pin" none).run (after (pinning pin "8"))).1 = .ok (some (.integer 8)) :=
    rfl
  have hprogress : ({} : Registry).progressRun (pinning pin "7") = [0, 0, 1] := rfl
  have hprogress' : ({} : Registry).progressRun (pinning pin "8") = [0, 0, 1] := rfl
  have hconceals := conceals_pinning rfl hall hread hread'
  obtain ⟨hget, -, hlist⟩ :=
    secrets_concealed differ_seven_eight (hprogress.trans hprogress'.symm)
  exact ⟨hread, hread', hget "pin" (hconceals _ _), (hlist hconceals).1⟩

/-- Both conditions are needed. A secret value that a parse refuses keeps the files out of force,
and with them the values of all other options. A secret value that does not convert is read as an
error in which it occurs. -/
theorem secrets_told :
    (¬∀ (hidden : String → String → Bool) (history history' : List Step),
      DifferInSecrets hidden history history' →
      (∀ dest group, (after history).Conceals (after history') dest group) →
      ((handle .list).run (after history)).1 = ((handle .list).run (after history')).1) ∧
    ¬∀ (hidden : String → String → Bool) (history history' : List Step),
      DifferInSecrets hidden history history' →
      ({} : Registry).progressRun history = ({} : Registry).progressRun history' →
      (∀ dest group entry, (after history).registry.entry? dest group = .ok entry →
        entry.schema.secret = true →
          (((read dest group).run (after history)).1 = .ok none ↔
            ((read dest group).run (after history')).1 = .ok none)) →
      ∀ level, ((dump level).run (after history)).1 = ((dump level).run (after history')).1 := by
  constructor
  · intro hclaim
    have hall : (after (pinning checkedPin "7")).registry.all =
        [(none, { schema := hostName }), (none, { schema := checkedPin })] := rfl
    have hread : ((read "pin" none).run (after (pinning checkedPin "7"))).1 =
        .ok (some (.integer 7)) := rfl
    have hread' : ((read "pin" none).run (after (pinning checkedPin "oops"))).1 =
        .ok (some (.integer 5)) := rfl
    have hlist : ((handle .list).run (after (pinning checkedPin "7"))).1 =
        .ok (.listing [("host", "there"), ("pin", "****")]) := by decide +kernel
    have hlist' : ((handle .list).run (after (pinning checkedPin "oops"))).1 =
        .ok (.listing [("host", "here"), ("pin", "****")]) := rfl
    have hsame := hclaim pinPlace _ _ differ_seven_oops (conceals_pinning rfl hall hread hread')
    rw [hlist, hlist'] at hsame
    exact absurd (Report.listing.inj (Except.ok.inj hsame)) (by decide)
  · intro hclaim
    have hall : (after (pinning pin "one")).registry.all =
        [(none, { schema := hostName }), (none, { schema := pin })] := rfl
    have hprogress : ({} : Registry).progressRun (pinning pin "one") = [0, 0, 1] := rfl
    have hprogress' : ({} : Registry).progressRun (pinning pin "two") = [0, 0, 1] := rfl
    have hread : ((read "pin" none).run (after (pinning pin "one"))).1 ≠ .ok none := by
      intro hnone
      cases hnone
    have hread' : ((read "pin" none).run (after (pinning pin "two"))).1 ≠ .ok none := by
      intro hnone
      cases hnone
    have hsame := hclaim pinPlace _ _ differ_one_two (hprogress.trans hprogress'.symm) ?_ .info
    · exact absurd hsame (by decide +kernel)
    · intro dest group entry hentry hsecret
      obtain ⟨rfl, rfl⟩ := eq_pin_of_secret rfl hall hentry hsecret
      exact ⟨fun hnone => absurd hnone hread, fun hnone => absurd hnone hread'⟩

end Config

end LayeredConfig
