import LayeredConfig.Proofs.Loading
import LayeredConfig.Proofs.Precedence
import Mathlib.Data.List.Induction

/-!
# One value is the last of all

A look-up of one value goes through the files from the top and stops at the
first that assigns a candidate. A look-up of all values goes through them from
the bottom and puts what it finds together. They ask every file in the same way,
so the file at which the first one stops is the last one that the other meets.

What this rests on is that a file that was read keeps no empty list of values:
such a list would end the first search with nothing and add nothing to the
second. `Layers.Ends` is what holds between the two, and every file that is put
on top preserves it.
-/

namespace LayeredConfig

/-- Every key that a source has is assigned at least once. -/
def Source.Filled (source : Source) : Prop :=
  ∀ name key values, source.normalized.find? name key = some values → values ≠ []

theorem Source.filled_of_read {path content : String} {source : Source}
    (h : read path content = .ok source) : source.Filled := by
  obtain ⟨items, -, rfl⟩ := exists_items_of_read h
  intro name key values hfind
  rw [ofItems, Sections.find?_ofItems, someValues] at hfind
  obtain ⟨hne, hsome⟩ := Option.ite_none_left_eq_some.1 hfind
  cases hsome
  exact hne

theorem Source.Filled.find?_ne_nil {source : Source} (h : source.Filled)
    {candidates : List (String × String)} {values : List String}
    (hfind : source.find? candidates = some values) : values ≠ [] := by
  obtain ⟨⟨name, key⟩, -, hcandidate⟩ := List.exists_of_findSome?_eq_some hfind
  exact h name key values hcandidate

namespace Layers

/-- Files that were read, put on top of each other. -/
inductive Stacked : Layers → Prop
  | empty : Stacked {}
  | add {layers : Layers} {path content : String} {source : Source} (below : Stacked layers)
      (hread : Source.read path content = .ok source) : Stacked (layers.add source)

/-- What a look-up of one value finds, beside what a look-up of all values finds: nothing, or the
values of a file with which those of all files end. -/
inductive Ends : Option (List String) → Option (List String) → Prop
  | nothing : Ends none none
  | values (below values : List String) (last : String) :
      Ends (some (values ++ [last])) (some (below ++ (values ++ [last])))

section Lookup

variable {layers : Layers} {source : Source} {names : List (String × String)}

theorem lookup_add_one (layers : Layers) (source : Source) (names : List (String × String)) :
    (layers.add source).lookup names false =
      (source.find? (names.map fun (name, key) => (normalizeName name, key))).or
        (layers.lookup names false) := by
  simp only [lookup, add, Bool.false_eq_true, if_false, List.findSome?_cons]
  cases source.find? _ with
  | none => rfl
  | some values => rfl

theorem lookup_add_all_of_some {values : List String}
    (h : source.find? (names.map fun (name, key) => (normalizeName name, key)) = some values) :
    (layers.add source).lookup names true =
      some ((layers.lookup names true).getD [] ++ values) := by
  simp only [lookup, add, if_true, List.reverse_cons, List.filterMap_append, List.filterMap_cons,
    List.filterMap_nil, h]
  cases layers.sources.reverse.filterMap _ with
  | nil => simp
  | cons found rest => simp

theorem lookup_add_all_of_none
    (h : source.find? (names.map fun (name, key) => (normalizeName name, key)) = none) :
    (layers.add source).lookup names true = layers.lookup names true := by
  simp only [lookup, add, if_true, List.reverse_cons, List.filterMap_append, List.filterMap_cons,
    List.filterMap_nil, h, List.append_nil]

/-- A file on top keeps the two look-ups together. -/
theorem Ends.add (h : Ends (layers.lookup names false) (layers.lookup names true))
    (hfilled : source.Filled) :
    Ends ((layers.add source).lookup names false) ((layers.add source).lookup names true) := by
  rw [lookup_add_one]
  cases hfind : source.find? (names.map fun (name, key) => (normalizeName name, key)) with
  | none =>
    rw [lookup_add_all_of_none hfind, Option.none_or]
    exact h
  | some values =>
    obtain ⟨front, last, rfl⟩ :=
      (List.eq_nil_or_concat values).resolve_left (hfilled.find?_ne_nil hfind)
    rw [lookup_add_all_of_some hfind, Option.some_or, List.concat_eq_append]
    exact .values _ front last

/-- In files that were read, the two look-ups stay together whatever they ask for. -/
theorem Stacked.ends (h : layers.Stacked) (names : List (String × String)) :
    Ends (layers.lookup names false) (layers.lookup names true) := by
  induction h with
  | empty => exact .nothing
  | add below hread ih => exact ih.add (Source.filled_of_read hread)

end Lookup

theorem stacked_ofReading {sources : List Source}
    (h : ∀ source ∈ sources, ∃ path content, Source.read path content = .ok source) :
    (ofReading sources).Stacked := by
  induction sources using List.reverseRecOn with
  | nil => exact .empty
  | append_singleton lower top ih =>
    obtain ⟨path, content, hread⟩ := h top (by simp)
    have hlower : (ofReading lower).Stacked :=
      ih fun source hsource => h source (List.mem_append_left _ hsource)
    have hadd : ofReading (lower ++ [top]) = (ofReading lower).add top := by
      simp only [ofReading, add, List.reverse_append, List.reverse_singleton,
        List.singleton_append]
    rw [hadd]
    exact hlower.add hread

end Layers

namespace Snapshot

theorem stacked_of_load {host : Host} {files : List String} {snapshot : Snapshot}
    (h : load host files = .ok snapshot) : snapshot.layers.Stacked := by
  rw [load_eq] at h
  split at h
  · cases h
  · cases h
    refine Layers.stacked_ofReading fun source hsource => ?_
    obtain ⟨reading, hreading, hsome⟩ := List.mem_filterMap.1 hsource
    obtain ⟨file, -, rfl⟩ := List.mem_map.1 hreading
    have hreads := host.reads_reading (host.fixPath file)
    generalize host.reading (host.fixPath file) = outcome at hreads hsome
    cases hreads with
    | source hread hitems =>
      cases hsome
      exact ⟨_, _, by rw [Source.read, hitems]; rfl⟩
    | _ => cases hsome

/-- In files that were read, whatever their number and whatever is asked for, a look-up of one
value finds nothing exactly if a look-up of all values finds nothing. Otherwise all values are a
row of texts that is not empty, and the one value is the last of them. -/
theorem one_last_of_all {snapshot : Snapshot} (h : snapshot.layers.Stacked)
    (names : List (Option String × String)) :
    (snapshot.value? names false = none ↔ snapshot.value? names true = none) ∧
      ∀ value, snapshot.value? names true = some value →
        ∃ (front : List String) (last : String),
          value = .array ((front ++ [last]).map .string) ∧
            snapshot.value? names false = some (.string last) := by
  simp only [value?]
  generalize List.map _ names = candidates
  have hends := h.ends candidates
  generalize snapshot.layers.lookup _ false = one at hends ⊢
  generalize snapshot.layers.lookup _ true = all at hends ⊢
  cases hends with
  | nothing =>
    refine ⟨by simp, fun value hvalue => ?_⟩
    cases hvalue
  | values below values last =>
    refine ⟨by simp, fun value hvalue => ?_⟩
    cases hvalue
    exact ⟨below ++ values, last, by simp, by simp⟩

open Sample in
/-- Two files, of which the upper one assigns the option under its second name only. -/
theorem one_last_of_all_overlay :
    ∃ snapshot, load overlayHost ["/base.conf", "/site.conf"] = .ok snapshot ∧
      snapshot.layers.Stacked ∧
      snapshot.value? [(some "api", "bind_port"), (some "api", "bind-port")] true =
        some (.array [.string "80", .string "90"]) ∧
      snapshot.value? [(some "api", "bind_port"), (some "api", "bind-port")] false =
        some (.string "90") := by
  have hload : load overlayHost ["/base.conf", "/site.conf"] =
      .ok (ofReadings (overlayHost.readings ["/base.conf", "/site.conf"])) := rfl
  have hstacked := stacked_of_load hload
  have hall : (ofReadings (overlayHost.readings ["/base.conf", "/site.conf"])).value?
      [(some "api", "bind_port"), (some "api", "bind-port")] true =
        some (.array [.string "80", .string "90"]) := rfl
  obtain ⟨front, last, hrow, hone⟩ := (one_last_of_all hstacked _).2 _ hall
  obtain rfl : "90" = last := by
    simpa using congrArg List.getLast? (Value.array.inj hrow)
  exact ⟨_, hload, hstacked, hall, hone⟩

end Snapshot

end LayeredConfig
