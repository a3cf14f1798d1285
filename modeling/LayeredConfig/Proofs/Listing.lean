import LayeredConfig.Proofs.Order
import Mathlib.Data.List.Forall2

/-!
# Listed keys and looked-up keys

A listing joins the group and the dest of an option with a dot, and a look-up
takes a key apart at its first dot. `Registry.Addressable` says when the second
undoes the first: the name of the group must hold no dot, and a dest outside all
groups must not begin with the name of a group and a dot. An addressable option
is looked up under the key that it is listed under, and shown in the same way;
an option that is not addressable is not what its key names.

A listing that succeeds has read every option, so a dump has no error to show and
prints the same lines.
-/

namespace LayeredConfig

namespace Registry

/-- The key of an option names it and nothing else. -/
def Addressable (r : Registry) (dest : String) : Option String → Prop
  | some group => '.' ∉ group.toList
  | none => ∀ before after, dest.toList = before ++ '.' :: after → '.' ∉ before →
      r.groups.contains (String.ofList before) = false

variable {r : Registry}

theorem toList_key_some (dest group : String) :
    (Report.key dest (some group)).toList = group.toList ++ '.' :: dest.toList := by
  simp [Report.key]

/-- A key that holds no dot, or only dots behind something that is no group, names a dest. -/
theorem place_eq_self_of {key : String}
    (h : ∀ before after, key.toList = before ++ '.' :: after → '.' ∉ before →
      r.groups.contains (String.ofList before) = false) :
    Report.place r key = (key, none) := by
  rw [Report.place]
  cases hcut : Text.cutFirst (· = '.') key.toList with
  | none => rfl
  | some halves =>
    obtain ⟨before, after⟩ := halves
    obtain ⟨c, hc, hkey, hbefore⟩ := Text.cutFirst_eq_some hcut
    obtain rfl : c = '.' := of_decide_eq_true hc
    have hgroup := h before after hkey fun hdot => hbefore '.' hdot (decide_eq_true rfl)
    simp only [hgroup, Bool.false_eq_true, if_false]

theorem place_of_cut {key : String} {before after : List Char}
    (hkey : key.toList = before ++ '.' :: after) (hbefore : '.' ∉ before)
    (hgroup : r.groups.contains (String.ofList before) = true) :
    Report.place r key = (String.ofList after, some (String.ofList before)) := by
  have hcut : Text.cutFirst (· = '.') key.toList = some (before, after) := by
    rw [hkey]
    refine Text.cutFirst_append (fun d hd hdot => ?_) (decide_eq_true rfl) after
    obtain rfl : d = '.' := of_decide_eq_true hdot
    exact hbefore hd
  rw [Report.place, hcut]
  simp only [hgroup, if_true]

/-- A key names the option that it is written for exactly if the option is addressable. -/
theorem place_key_iff {dest : String} {group : Option String} {entries : Table Entry}
    (hgroup : r.entries? group = .ok entries) :
    Report.place r (Report.key dest group) = (dest, group) ↔ r.Addressable dest group := by
  cases group with
  | none =>
    constructor
    · intro hplace before after hdest hbefore
      rw [Bool.eq_false_iff]
      intro hcontains
      rw [Report.key, place_of_cut hdest hbefore hcontains] at hplace
      cases hplace
    · intro haddressable
      exact place_eq_self_of haddressable
  | some name =>
    obtain ⟨m, hm, -⟩ := entries?_some_eq_ok_iff.1 hgroup
    constructor
    · intro hplace hdot
      -- The key is cut at its first dot, which is one in the name of the group if there is any.
      rw [Report.place] at hplace
      split at hplace
      · next before after hcut =>
        obtain ⟨c, hc, -, hbefore⟩ := Text.cutFirst_eq_some hcut
        simp only at hplace
        split at hplace
        · obtain rfl := Option.some.inj (Prod.mk.inj hplace).2
          rw [String.toList_ofList] at hdot
          exact hbefore '.' hdot (decide_eq_true rfl)
        · cases (Prod.mk.inj hplace).2
      · cases (Prod.mk.inj hplace).2
    · intro hdot
      have hcontains : r.groups.contains (String.ofList name.toList) = true := by
        rw [String.ofList_toList, Table.contains, hm]
        rfl
      rw [place_of_cut (toList_key_some dest name) hdot hcontains, String.ofList_toList,
        String.ofList_toList]

/-- How a line of a listing shows an option. -/
def Lists (r : Registry) (option : Option String × Entry) (line : String × String) : Prop :=
  ∃ value, r.read option.2.schema.dest option.1 = .ok value ∧
    line = (Report.key option.2.schema.dest option.1,
      Report.shown option.2.schema.secret value)

theorem entries_ok_of_make_list {report : Report}
    (h : Report.make (m := Id) r.read r .list = .ok report) :
    ∃ lines, Report.entries (m := Id) r.read r.all = .ok lines ∧ .listing lines = report := by
  have hmap : Except.map Report.listing (Report.entries (m := Id) r.read r.all) =
      .ok report := h
  cases hlines : Report.entries (m := Id) r.read r.all with
  | error e =>
    rw [hlines] at hmap
    cases hmap
  | ok lines =>
    rw [hlines] at hmap
    cases hmap
    exact ⟨lines, rfl, rfl⟩

theorem lists_of_entries_ok {options : List (Option String × Entry)}
    {lines : List (String × String)}
    (h : Report.entries (m := Id) r.read options = .ok lines) :
    List.Forall₂ r.Lists options lines := by
  induction options generalizing lines with
  | nil =>
    cases h
    exact .nil
  | cons option rest ih =>
    obtain ⟨group, entry⟩ := option
    rw [entries_cons] at h
    cases hread : r.read entry.schema.dest group with
    | error e =>
      rw [hread] at h
      cases h
    | ok value =>
      rw [hread] at h
      cases hrest : Report.entries (m := Id) r.read rest with
      | error e =>
        rw [hrest] at h
        cases h
      | ok more =>
        rw [hrest] at h
        cases h
        exact .cons ⟨value, hread, rfl⟩ (ih hrest)

theorem dumpLines_of_lists {options : List (Option String × Entry)}
    {lines : List (String × String)} (h : List.Forall₂ r.Lists options lines) :
    Report.dumpLines (m := Id) r.read options =
      lines.map fun line => Report.padded 30 line.1 ++ " = " ++ line.2 := by
  induction h with
  | nil => rfl
  | @cons option line rest more hline _ ih =>
    obtain ⟨group, entry⟩ := option
    obtain ⟨value, hread, rfl⟩ := hline
    rw [dumpLines_cons, hread, ih]
    rfl

theorem make_get_of_lists {option : Option String × Entry} {line : String × String}
    (hentry : r.entryAt? option.2.schema.dest option.1 = some option.2)
    (hline : r.Lists option line) (h : r.Addressable option.2.schema.dest option.1) :
    Report.make (m := Id) r.read r (.get line.1) =
      .ok (.option line.1 line.2 option.2.schema.help) := by
  obtain ⟨group, entry⟩ := option
  obtain ⟨value, hread, rfl⟩ := hline
  obtain ⟨entries, hgroup, -⟩ := exists_entries?_of_entryAt? hentry
  have hplace := (place_key_iff hgroup).2 h
  simp only [Report.make, hplace, entry?_eq_ok_iff.2 hentry]
  rw [hread]
  rfl

end Registry

namespace Config

/-- In every configuration that a run leads to, a listing that succeeds has one line for each
option, in order, under the key of the option. Whatever is addressable is looked up under that key
with the value of the line and its own help, and a dump prints the same keys and values. -/
theorem listed_keys_looked_up (history : List Step) {report : Report}
    (hlist : ((handle .list).run (after history)).1 = .ok report) :
    ∃ lines, report = .listing lines ∧
      List.Forall₂ (fun option line =>
          line.1 = Report.key option.2.schema.dest option.1 ∧
            ((after history).registry.Addressable option.2.schema.dest option.1 →
              ((handle (.get line.1)).run (after history)).1 =
                .ok (.option line.1 line.2 option.2.schema.help)))
        (after history).registry.all lines ∧
      ∀ level, ((dump level).run (after history)).1 =
        (([Report.rule '*', "Configuration options gathered from:",
            "config files: " ++ Text.quotedPaths (after history).registry.files,
            Report.rule '='] ++
          (lines.map fun line => Report.padded 30 line.1 ++ " = " ++ line.2) ++
          [Report.rule '*']).map fun text => { level, message := text }) := by
  have hcoherent := coherent_after history
  have hkeyed := keyed_after history
  generalize after history = config at hlist hcoherent hkeyed ⊢
  have hhandle : ∀ action, ((handle action).run config).1 =
      Report.make (m := Id) config.registry.read config.registry action := fun action =>
    (gives_handle _ action config hcoherent rfl).answer
  rw [hhandle] at hlist
  obtain ⟨lines, hlines, rfl⟩ := Registry.entries_ok_of_make_list hlist
  have hlists := Registry.lists_of_entries_ok hlines
  refine ⟨lines, rfl, ?_, fun level => ?_⟩
  · have hknown : ∀ option ∈ config.registry.all,
        config.registry.entryAt? option.2.schema.dest option.1 = some option.2 :=
      fun option hmem => hkeyed.mem_all_iff.1 hmem
    refine ((List.forall₂_and_left _ _).2 ⟨hknown, hlists⟩).imp fun option line h => ?_
    obtain ⟨hentry, hline⟩ := h
    refine ⟨?_, fun haddressable => ?_⟩
    · obtain ⟨value, -, rfl⟩ := hline
      rfl
    · rw [hhandle]
      exact Registry.make_get_of_lists hentry hline haddressable
  · rw [(gives_dump _ level config hcoherent rfl).answer, Report.dump]
    rw [Registry.dumpLines_of_lists hlists]
    rfl

end Config

namespace Sample

def helpedPort : Schema :=
  { port with help := some "Where to listen" }

/-- An option outside all groups whose dest reads like one of the group `api`. -/
def groupLike : List Step :=
  [⟨bareHost, .change (.registerGroup (Group.ofName "api"))⟩,
    registering { port with dest := "api.port" } none]

/-- An option of a group whose name holds a dot. -/
def dottedGroup : List Step :=
  [registering port (some "api.v1")]

end Sample

namespace Config

open Sample

/-- Options inside a group and outside all groups, one of them with help. -/
theorem listed_keys_looked_up_helped :
    let history := [registering helpedPort (some "api"), registering port none]
    ((handle .list).run (after history)).1 = .ok (.listing [("port", "80"), ("api.port", "80")]) ∧
      ((handle (.get "api.port")).run (after history)).1 =
        .ok (.option "api.port" "80" (some "Where to listen")) := by
  intro history
  have hlist : ((handle .list).run (after history)).1 =
      .ok (.listing [("port", "80"), ("api.port", "80")]) := rfl
  obtain ⟨lines, hlines, hlooked, -⟩ := listed_keys_looked_up history hlist
  cases hlines
  cases hlooked with
  | cons _ hrest =>
    cases hrest with
    | cons hgrouped _ =>
      have haddressable : '.' ∉ "api".toList := by decide
      exact ⟨hlist, hgrouped.2 haddressable⟩

/-- A listed key need not be found: what stands before its first dot may happen to name a group,
and the name of its own group may go on behind that dot. -/
theorem dotted_keys_lost :
    (((handle .list).run (after groupLike)).1 = .ok (.listing [("api.port", "80")]) ∧
        ((handle (.get "api.port")).run (after groupLike)).1 =
          .error (.noSuchOption "port" (some "api"))) ∧
      ((handle .list).run (after dottedGroup)).1 = .ok (.listing [("api.v1.port", "80")]) ∧
        ((handle (.get "api.v1.port")).run (after dottedGroup)).1 =
          .error (.noSuchOption "api.v1.port" none) :=
  ⟨⟨rfl, rfl⟩, rfl, rfl⟩

end Config

end LayeredConfig
