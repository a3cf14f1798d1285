import LayeredConfig.Host.FileTree
import LayeredConfig.Proofs.Assignments
import LayeredConfig.Proofs.Installed
import LayeredConfig.Proofs.Keyed
import LayeredConfig.Proofs.Loading

/-!
# Which layer decides a value

The value of an option is decided by what each file in force assigns to it, from
the first file to the last. A file assigns what stands under the dest of the
option or, only if nothing does, what stands under its name. A single option has
the last text of the last file that assigns any; an option that collects has all
texts of all files. Only where no file assigns any do the defaults come in, and
a text that does not convert is an error, never a reason to look further.

`Entry.Decided` says all this without layers, tables or normal forms, and every
value that is read agrees with it.
-/

namespace LayeredConfig

namespace Entry

/-- The texts that a file with these items assigns to a key in the section of a group. The
section of the options outside all groups is `DEFAULT`. -/
def textsUnder (group : Option String) (key : String) (items : List Item) : List String :=
  valuesUnder (SameSection · (group.getD defaultSection)) key items

/-- The texts that a file with these items assigns to an option. -/
def textsIn (entry : Entry) (group : Option String) (items : List Item) : List String :=
  if textsUnder group entry.schema.dest items = [] then
    textsUnder group entry.schema.name items
  else textsUnder group entry.schema.dest items

/-- How the value of an option that is not locked is decided, given the texts that each file in
force assigns to it, from the first file to the last. -/
inductive Decided (entry : Entry) (validating : Bool) (found : List (List String)) :
    Except ConfigError (Option Value) → Prop
  /-- The last text of the last file that assigns any. -/
  | last {lower higher : List (List String)} {texts : List String} {text : String}
      (hsingle : entry.schema.multi = false)
      (hfound : found = lower ++ (texts ++ [text]) :: higher)
      (hhigher : ∀ texts ∈ higher, texts = []) :
      Decided entry validating found
        (some <$> (entry.schema.kind.convertString text).mapError
          (.invalidValue entry.schema.name))
  /-- All texts of all files. -/
  | collected (hmulti : entry.schema.multi = true) (hfound : found.flatten ≠ []) :
      Decided entry validating found
        (some <$> (.array <$> found.flatten.mapM entry.schema.kind.convertString).mapError
          (.invalidValue entry.schema.name))
  | override {value : Value} (hfound : found.flatten = [])
      (hoverride : entry.override = some value) (hmode : validating = false) :
      Decided entry validating found (.ok (some value))
  | overrideConverted {value : Value} (hfound : found.flatten = [])
      (hoverride : entry.override = some value) (hmode : validating = true) :
      Decided entry validating found
        (some <$> (entry.schema.convert value).mapError (.invalidDefault entry.schema.name))
  | default {value : Value} (hfound : found.flatten = []) (hoverride : entry.override = none)
      (hdefault : entry.schema.default = some value) :
      Decided entry validating found
        (some <$> (entry.schema.convert value).mapError (.invalidDefault entry.schema.name))
  | nothing (hfound : found.flatten = []) (hoverride : entry.override = none)
      (hdefault : entry.schema.default = none) :
      Decided entry validating found (.ok none)

end Entry

/-- Either no file assigns any text, or there is a last one that does. -/
theorem exists_last_text (found : List (List String)) :
    found.flatten = [] ∨ ∃ lower texts text higher,
      found = lower ++ (texts ++ [text]) :: higher ∧ ∀ texts ∈ higher, texts = [] := by
  induction found with
  | nil => exact .inl rfl
  | cons texts rest ih =>
    rcases ih with hrest | ⟨lower, texts', text, higher, hsplit, hhigher⟩
    · rcases List.eq_nil_or_concat texts with hnil | ⟨front, text, hconcat⟩
      · left
        rw [hnil, List.flatten_cons, hrest]
        rfl
      · right
        refine ⟨[], front, text, rest, ?_, List.flatten_eq_nil_iff.1 hrest⟩
        rw [hconcat, List.concat_eq_append]
        rfl
    · right
      refine ⟨texts :: lower, texts', text, higher, ?_, hhigher⟩
      rw [hsplit]
      rfl

/-- The text that a look-up of one value finds in what the files assign. -/
def lastText? (found : List (List String)) : Option String :=
  (found.reverse.findSome? someValues).bind List.getLast?

theorem lastText?_of_flatten_eq_nil {found : List (List String)} (h : found.flatten = []) :
    lastText? found = none := by
  have hnone : found.reverse.findSome? someValues = none := by
    rw [List.findSome?_eq_none_iff]
    intro texts hmem
    rw [List.flatten_eq_nil_iff.1 h texts (List.mem_reverse.1 hmem)]
    rfl
  rw [lastText?, hnone]
  rfl

theorem lastText?_append {higher : List (List String)} (h : ∀ texts ∈ higher, texts = [])
    (lower : List (List String)) (texts : List String) (text : String) :
    lastText? (lower ++ (texts ++ [text]) :: higher) = some text := by
  have hhigher : higher.reverse.findSome? someValues = none := by
    rw [List.findSome?_eq_none_iff]
    intro texts' hmem
    rw [h texts' (List.mem_reverse.1 hmem)]
    rfl
  have hne : texts ++ [text] ≠ [] := by simp
  rw [lastText?, List.reverse_append, List.reverse_cons, List.append_assoc,
    List.findSome?_append, hhigher, Option.none_or, List.singleton_append,
    List.findSome?_cons, someValues_of_ne_nil hne]
  exact List.getLast?_concat

theorem someValues_eq_guard : someValues = Option.guard fun values => decide (values ≠ []) := by
  funext values
  cases values with
  | nil => rfl
  | cons text rest => rfl

namespace Layers

variable {names : List (String × String)} {source : String → Source}
  {texts : String → List String}

theorem lookup_collect
    (h : ∀ file, (source file).find? (names.map fun (name, key) => (normalizeName name, key)) =
      someValues (texts file)) (files : List String) :
    (ofReading (files.map source)).lookup names true =
      someValues (files.map texts).flatten := by
  have hfound : ((files.map source).filterMap fun source =>
      source.find? (names.map fun (name, key) => (normalizeName name, key))) =
        (files.map texts).filter (· ≠ []) := by
    rw [← List.filterMap_eq_filter, ← someValues_eq_guard, List.filterMap_map,
      List.filterMap_map]
    congr 1
    funext file
    exact h file
  simp only [lookup, ofReading, List.reverse_reverse, hfound, if_true]
  rw [List.flatten_filter_ne_nil]
  by_cases hnil : (files.map texts).flatten = []
  · rw [hnil, if_pos]
    · rfl
    · have hall := List.flatten_eq_nil_iff.1 hnil
      simpa using hall
  · rw [someValues_of_ne_nil hnil, if_neg]
    intro hempty
    apply hnil
    rw [List.flatten_eq_nil_iff]
    simpa using hempty

theorem lookup_single
    (h : ∀ file, (source file).find? (names.map fun (name, key) => (normalizeName name, key)) =
      someValues (texts file)) (files : List String) :
    (ofReading (files.map source)).lookup names false =
      (files.map texts).reverse.findSome? someValues := by
  simp only [lookup, ofReading, Bool.false_eq_true, if_false]
  rw [← List.map_reverse, ← List.map_reverse, List.findSome?_map, List.findSome?_map]
  congr 1
  funext file
  exact h file

end Layers

namespace Entry

variable (entry : Entry) (group : Option String)

theorem find?_normalized_group (path : String) (items : List Item) (key : String) :
    (Source.ofItems path items).normalized.find? (normalizeName (group.getD defaultSection)) key =
      someValues (textsUnder group key items) :=
  Source.find?_normalized_ofItems path items (group.getD defaultSection) key

/-- The candidates of an option, looked up in a file, give the texts that the file assigns to the
option. -/
theorem find?_names (path : String) (items : List Item) :
    (Source.ofItems path items).find?
        (((entry.names group).map fun (name, key) => (name.getD defaultSection, key)).map
          fun (name, key) => (normalizeName name, key)) =
      someValues (entry.textsIn group items) := by
  rw [names, textsIn]
  split
  · next hname =>
    rw [hname, ite_self]
    show Source.find? _ [(normalizeName (group.getD defaultSection), entry.schema.dest)] = _
    rw [Source.find?_cons, find?_normalized_group]
    exact Option.or_none
  · show Source.find? _ [(normalizeName (group.getD defaultSection), entry.schema.dest),
      (normalizeName (group.getD defaultSection), entry.schema.name)] = _
    rw [Source.find?_cons, Source.find?_cons, find?_normalized_group, find?_normalized_group]
    split
    · next hnil =>
      rw [hnil, someValues_nil, Option.none_or]
      exact Option.or_none
    · next hsome => rw [someValues_of_ne_nil hsome, Option.some_or]

theorem convert_array {entry : Entry} (hmulti : entry.schema.multi = true) (texts : List String) :
    entry.schema.convert (.array (texts.map .string)) =
      .array <$> texts.mapM entry.schema.kind.convertString := by
  rw [Schema.convert, if_pos hmulti]
  show Value.array <$> (texts.map Value.string).mapM entry.schema.kind.convert = _
  rw [List.mapM_map]
  rfl

theorem convertFile_eq (value : Value) :
    entry.convertFile value =
      (entry.schema.convert value).mapError (.invalidValue entry.schema.name) := by
  rw [convertFile]
  cases entry.schema.convert value with
  | ok converted => rfl
  | error cause => rfl

theorem convertDefault_eq (value : Value) :
    entry.convertDefault value =
      (entry.schema.convert value).mapError (.invalidDefault entry.schema.name) := by
  rw [convertDefault]
  cases entry.schema.convert value with
  | ok converted => rfl
  | error cause => rfl

variable {entry group}

theorem decided_resolveDefault {found : List (List String)} (hfound : found.flatten = [])
    (validating : Bool) : entry.Decided validating found (entry.resolveDefault validating) := by
  rw [resolveDefault]
  cases hoverride : entry.override with
  | some value =>
    cases validating with
    | true =>
      simp only [if_true, convertDefault_eq]
      exact .overrideConverted hfound hoverride rfl
    | false => exact .override hfound hoverride rfl
  | none =>
    cases hdefault : entry.schema.default with
    | some value =>
      simp only [convertDefault_eq]
      exact .default hfound hoverride hdefault
    | none => exact .nothing hfound hoverride hdefault

section Files

variable {snapshot : Snapshot} {files : List String} {path : String → String}
  {items : String → List Item}

theorem fileValue?_single
    (hlayers : snapshot.layers =
      Layers.ofReading (files.map fun file => Source.ofItems (path file) (items file)))
    (hsingle : entry.schema.multi = false) :
    entry.fileValue? group (some snapshot) =
      (lastText? (files.map fun file => entry.textsIn group (items file))).map .string := by
  simp only [fileValue?, Option.bind_some, Snapshot.value?, hsingle, hlayers, lastText?]
  rw [Layers.lookup_single fun file => find?_names entry group (path file) (items file)]
  cases List.findSome? someValues _ with
  | none => rfl
  | some texts => rfl

theorem fileValue?_collect
    (hlayers : snapshot.layers =
      Layers.ofReading (files.map fun file => Source.ofItems (path file) (items file)))
    (hmulti : entry.schema.multi = true) :
    entry.fileValue? group (some snapshot) =
      (someValues (files.map fun file => entry.textsIn group (items file)).flatten).map
        fun texts => .array (texts.map .string) := by
  simp only [fileValue?, Option.bind_some, Snapshot.value?, hmulti, hlayers]
  rw [Layers.lookup_collect fun file => find?_names entry group (path file) (items file)]
  cases someValues _ with
  | none => rfl
  | some texts => rfl

/-- Under any snapshot whose layers are files with these items, the value of an option that is not
locked is decided by what each file assigns to it. -/
theorem decided_resolve
    (hlayers : snapshot.layers =
      Layers.ofReading (files.map fun file => Source.ofItems (path file) (items file)))
    (hlocked : entry.locked = none) (validating : Bool) :
    entry.Decided validating (files.map fun file => entry.textsIn group (items file))
      (entry.resolve group (some snapshot) validating) := by
  rw [resolve, hlocked]
  cases hmulti : entry.schema.multi with
  | true =>
    rw [fileValue?_collect hlayers hmulti]
    by_cases hfound : (files.map fun file => entry.textsIn group (items file)).flatten = []
    · rw [hfound]
      exact decided_resolveDefault hfound validating
    · rw [someValues_of_ne_nil hfound]
      simp only [Option.map_some, convertFile_eq, convert_array hmulti]
      exact .collected hmulti hfound
  | false =>
    rw [fileValue?_single hlayers hmulti]
    rcases exists_last_text (files.map fun file => entry.textsIn group (items file)) with
      hfound | ⟨lower, texts, text, higher, hfound, hhigher⟩
    · rw [lastText?_of_flatten_eq_nil hfound]
      exact decided_resolveDefault hfound validating
    · rw [hfound, lastText?_append hhigher]
      simp only [Option.map_some, convertFile_eq, Schema.convert, hmulti, Bool.false_eq_true,
        if_false]
      exact .last hmulti rfl hhigher

end Files

end Entry

namespace Sample

def bindPort : Schema :=
  Schema.ofName "bind-port" (.integer none none)

/-- Two files that assign an option, the first under its dest and the second under its name. -/
def overlayHost : Host :=
  ((({} : FileTree).add "/base.conf" (.file "[API]\nbind_port = 80\n".toUTF8)).add
    "/site.conf" (.file "[Api]\nbind-port = 90\n".toUTF8)).host "/" "/"

def overlaying : List Step :=
  [registering bindPort (some "api"),
    ⟨overlayHost, .parse ["/base.conf", "/site.conf"] false⟩]

end Sample

namespace Config

/-- Whatever happened before, and whatever was registered, replaced or locked since the files were
parsed: the files in force are readable and well formed, and a read of an option that is not locked
gives the value that the texts assigned to it decide. -/
theorem read_decided {history : List Step} {host : Host} {files : List String}
    {validating : Bool} {dest : String} {group : Option String} {entry : Entry}
    (hinstalled : (after history).registry.Installed host files validating)
    (hentry : (after history).registry.entry? dest group = .ok entry)
    (hlocked : entry.locked = none) :
    (∀ file ∈ files, host.HasItems (host.fixPath file) (host.itemsAt (host.fixPath file))) ∧
      entry.schema.dest = dest ∧
      entry.Decided validating
        (files.map fun file => entry.textsIn group (host.itemsAt (host.fixPath file)))
        ((read dest group).run (after history)).1 := by
  obtain ⟨before, snapshot, hload, hcheck, hsnapshot, hmode⟩ := hinstalled.snapshot
  obtain ⟨rfl, hitems⟩ :=
    Snapshot.hasItems_of_load hload (Registry.checkAccess_of_check hcheck)
  have hlayers := Snapshot.layers_ofReadings host fun file hfile => ⟨_, hitems file hfile⟩
  have hbelongs := keyed_after history dest group entry (Registry.entry?_eq_ok_iff.1 hentry)
  refine ⟨hitems, hbelongs.dest_eq, ?_⟩
  have hread := (gives_read _ dest group (after history) (coherent_after history) rfl).answer
  rw [hread, Registry.read, hentry]
  simp only [hsnapshot, hmode]
  exact Entry.decided_resolve hlayers hlocked validating

open Sample in
/-- A later file wins, also if it assigns the option under its name only. -/
theorem read_decided_overlay :
    (after overlaying).registry.Installed overlayHost ["/base.conf", "/site.conf"] false ∧
      (after overlaying).registry.entry? "bind_port" (some "api") =
        .ok { schema := bindPort } ∧
      Entry.Decided { schema := bindPort } false [["80"], ["90"]] (.ok (some (.integer 90))) := by
  have hinstalled :
      (after overlaying).registry.Installed overlayHost ["/base.conf", "/site.conf"] false :=
    ⟨{}, rfl, rfl⟩
  have hentry : (after overlaying).registry.entry? "bind_port" (some "api") =
      .ok { schema := bindPort } := rfl
  exact ⟨hinstalled, hentry, (read_decided hinstalled hentry rfl).2.2⟩

end Config

end LayeredConfig
