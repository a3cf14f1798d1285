import LayeredConfig.Discovery
import LayeredConfig.Proofs.Precedence
import Mathlib.Data.List.Induction

/-!
# The order of found files

A search goes through its locations from the lowest priority to the highest, and
a later location adds a file only if none before it leads to the same one. A
location without a directory leads nowhere. So every file is found once and stands
where the first location that leads to it has put it (`FoundBefore`).

What decides the priority of a file is the last location that leads to it
(`Outranked`). The two orders differ only where some file encloses another: one
location leads to it before all those that lead to the other, and one after
them. Then the other file is found behind it and wins, although the location
with the higher priority leads to the file that is found first.
-/

namespace LayeredConfig

/-- Going through a list from the left, a member is kept if no kept one is its duplicate. -/
theorem eraseDupsBy_concat {α : Type} (r : α → α → Bool) (xs : List α) (x : α) :
    (xs ++ [x]).eraseDupsBy r =
      if (xs.eraseDupsBy r).any (r x) then xs.eraseDupsBy r else xs.eraseDupsBy r ++ [x] := by
  have hloop : ∀ kept, List.eraseDupsBy.loop r (xs ++ [x]) kept =
      if (List.eraseDupsBy.loop r xs kept).any (r x) then List.eraseDupsBy.loop r xs kept
      else List.eraseDupsBy.loop r xs kept ++ [x] := by
    induction xs with
    | nil =>
      intro kept
      cases hany : kept.any (r x) with
      | true => simp [List.eraseDupsBy.loop, hany]
      | false => simp [List.eraseDupsBy.loop, hany]
    | cons y rest ih =>
      intro kept
      rw [List.cons_append, List.eraseDupsBy.loop, List.eraseDupsBy.loop]
      cases kept.any (r y) with
      | true => exact ih kept
      | false => exact ih (y :: kept)
  exact hloop []

section Same

theorem Path.same_iff {path other : String} :
    Path.same path other = true ↔ parts path.toList = parts other.toList :=
  decide_eq_true_iff

theorem Path.same_refl (path : String) : Path.same path path = true :=
  same_iff.2 rfl

theorem Path.same_symm {path other : String} (h : Path.same path other = true) :
    Path.same other path = true :=
  same_iff.2 (same_iff.1 h).symm

theorem Path.same_trans {path other third : String} (h : Path.same path other = true)
    (hnext : Path.same other third = true) : Path.same path third = true :=
  same_iff.2 ((same_iff.1 h).trans (same_iff.1 hnext))

end Same

section Search

variable (host : Host) (project : String) (locations : List Location)

/-- The project has a file at a location, and it is this one. -/
def Location.Holds (location : Location) (path : String) : Prop :=
  ∃ file, location.candidate? host project = some file ∧ host.isFile file = true ∧
    Path.same file path = true

/-- The location at a place in a list leads to a file. -/
def LeadsTo (place : Nat) (path : String) : Prop :=
  ∃ location, locations[place]? = some location ∧ location.Holds host project path

/-- The first location that leads to a file stands before all those that lead to another. -/
def FoundBefore (path other : String) : Prop :=
  ∃ first, LeadsTo host project locations first path ∧
    ∀ place, LeadsTo host project locations place other → first < place

/-- The last location that leads to another file stands after all those that lead to this one: of
the two, the other has the higher priority. -/
def Outranked (path other : String) : Prop :=
  ∃ last, LeadsTo host project locations last other ∧
    ∀ place, LeadsTo host project locations place path → place < last

/-- All locations that lead to another file stand between ones that lead to this one. -/
def Encloses (path other : String) : Prop :=
  (∃ place, LeadsTo host project locations place other) ∧
    ∀ place, LeadsTo host project locations place other →
      (∃ before < place, LeadsTo host project locations before path) ∧
        ∃ after > place, LeadsTo host project locations after path

end Search

variable {host : Host} {project : String} {locations : List Location} {location : Location}
  {place : Nat} {path other file : String}

section Places

theorem LeadsTo.congr (h : LeadsTo host project locations place path)
    (hsame : Path.same path other = true) : LeadsTo host project locations place other := by
  obtain ⟨location, hlocation, file, hcandidate, hfile, hpath⟩ := h
  exact ⟨location, hlocation, file, hcandidate, hfile, Path.same_trans hpath hsame⟩

theorem LeadsTo.same (h : LeadsTo host project locations place path)
    (hother : LeadsTo host project locations place other) : Path.same path other = true := by
  obtain ⟨location, hlocation, file, hcandidate, -, hpath⟩ := h
  obtain ⟨location', hlocation', file', hcandidate', -, hpath'⟩ := hother
  obtain rfl : location = location' := by
    rw [hlocation] at hlocation'
    exact Option.some.inj hlocation'
  obtain rfl : file = file' := by
    rw [hcandidate] at hcandidate'
    exact Option.some.inj hcandidate'
  exact Path.same_trans (Path.same_symm hpath) hpath'

theorem LeadsTo.lt_length (h : LeadsTo host project locations place path) :
    place < locations.length := by
  obtain ⟨location, hlocation, -⟩ := h
  exact (List.getElem?_eq_some_iff.1 hlocation).1

theorem leadsTo_concat_of_lt (h : place < locations.length) :
    LeadsTo host project (locations ++ [location]) place path ↔
      LeadsTo host project locations place path := by
  rw [LeadsTo, LeadsTo, List.getElem?_append_left h]

theorem leadsTo_concat_length :
    LeadsTo host project (locations ++ [location]) locations.length path ↔
      location.Holds host project path := by
  simp [LeadsTo]

theorem leadsTo_concat_iff :
    LeadsTo host project (locations ++ [location]) place path ↔
      LeadsTo host project locations place path ∨
        place = locations.length ∧ location.Holds host project path := by
  constructor
  · intro h
    have hlength := h.lt_length
    rw [List.length_append, List.length_singleton, Nat.lt_succ_iff] at hlength
    obtain hlt | rfl := Nat.lt_or_eq_of_le hlength
    · exact .inl ((leadsTo_concat_of_lt hlt).1 h)
    · exact .inr ⟨rfl, leadsTo_concat_length.1 h⟩
  · rintro (h | ⟨rfl, h⟩)
    · exact (leadsTo_concat_of_lt h.lt_length).2 h
    · exact leadsTo_concat_length.2 h

end Places

section Step

theorem discover_concat_none (locations : List Location)
    (h : location.candidate? host project = none) :
    discover host project (locations ++ [location]) = discover host project locations := by
  simp [discover, h]

/-- What a further location, of the highest priority, adds to the files that are found. -/
theorem discover_concat_some (locations : List Location)
    (h : location.candidate? host project = some file) :
    discover host project (locations ++ [location]) =
      if host.isFile file = true ∧
          ∀ path ∈ discover host project locations, ¬Path.same file path = true
        then discover host project locations ++ [file]
        else discover host project locations := by
  simp only [discover, List.filterMap_append, List.filter_append, List.filterMap_cons, h,
    List.filterMap_nil]
  cases hfile : host.isFile file with
  | false => simp [hfile]
  | true =>
    rw [List.filter_cons_of_pos hfile, List.filter_nil, eraseDupsBy_concat]
    simp only [true_and, List.any_eq_true]
    split
    · next hany =>
      obtain ⟨path, hpath, hsame⟩ := hany
      rw [if_neg fun hnone => hnone path hpath hsame]
    · next hnone =>
      rw [if_pos fun path hpath hsame => hnone ⟨path, hpath, hsame⟩]

/-- What a search has found: every file that a location leads to, once, in the order of the first
locations that lead to them. -/
structure Finds (host : Host) (project : String) (locations : List Location)
    (found : List String) : Prop where
  existing : ∀ path ∈ found, host.isFile path = true ∧
    ∃ location ∈ locations, location.candidate? host project = some path
  complete : ∀ place path, LeadsTo host project locations place path →
    ∃ other ∈ found, Path.same path other = true
  once : found.Pairwise fun path other => ¬Path.same path other = true
  ordered : found.Pairwise (FoundBefore host project locations)

variable {found : List String}

theorem Finds.exists_place (h : Finds host project locations found) (hpath : path ∈ found) :
    ∃ place, LeadsTo host project locations place path := by
  obtain ⟨hfile, location, hlocation, hcandidate⟩ := h.existing path hpath
  obtain ⟨place, hplace⟩ := List.mem_iff_getElem?.1 hlocation
  exact ⟨place, location, hplace, path, hcandidate, hfile, Path.same_refl _⟩

theorem FoundBefore.concat (h : FoundBefore host project locations path other)
    (location : Location) : FoundBefore host project (locations ++ [location]) path other := by
  obtain ⟨first, hfirst, hbefore⟩ := h
  refine ⟨first, leadsTo_concat_iff.2 (.inl hfirst), fun place hplace => ?_⟩
  obtain hplace | ⟨rfl, -⟩ := leadsTo_concat_iff.1 hplace
  · exact hbefore place hplace
  · exact hfirst.lt_length

theorem Finds.pass (h : Finds host project locations found)
    (hknown : ∀ file, location.candidate? host project = some file → host.isFile file = true →
      ∃ path ∈ found, Path.same file path = true) :
    Finds host project (locations ++ [location]) found where
  existing path hpath := by
    obtain ⟨hfile, known, hmem, hcandidate⟩ := h.existing path hpath
    exact ⟨hfile, known, List.mem_append_left _ hmem, hcandidate⟩
  complete place path hplace := by
    obtain hplace | ⟨-, file, hcandidate, hfile, hsame⟩ := leadsTo_concat_iff.1 hplace
    · exact h.complete place path hplace
    · obtain ⟨other, hother, hfound⟩ := hknown file hcandidate hfile
      exact ⟨other, hother, Path.same_trans (Path.same_symm hsame) hfound⟩
  once := h.once
  ordered := h.ordered.imp fun hbefore => hbefore.concat location

theorem Finds.add (h : Finds host project locations found)
    (hcandidate : location.candidate? host project = some file) (hfile : host.isFile file = true)
    (hnew : ∀ path ∈ found, ¬Path.same file path = true) :
    Finds host project (locations ++ [location]) (found ++ [file]) where
  existing path hpath := by
    obtain hpath | hpath := List.mem_append.1 hpath
    · obtain ⟨hfile, known, hknown, hcandidate⟩ := h.existing path hpath
      exact ⟨hfile, known, List.mem_append_left _ hknown, hcandidate⟩
    · obtain rfl := List.mem_singleton.1 hpath
      exact ⟨hfile, location, by simp, hcandidate⟩
  complete place path hplace := by
    obtain hplace | ⟨-, file', hcandidate', -, hsame⟩ := leadsTo_concat_iff.1 hplace
    · obtain ⟨other, hother, hsame⟩ := h.complete place path hplace
      exact ⟨other, List.mem_append_left _ hother, hsame⟩
    · obtain rfl : file = file' := by
        rw [hcandidate] at hcandidate'
        exact Option.some.inj hcandidate'
      exact ⟨file, by simp, Path.same_symm hsame⟩
  once := by
    refine List.pairwise_append.2
      ⟨h.once, List.pairwise_singleton _ _, fun path hpath other hother => ?_⟩
    obtain rfl := List.mem_singleton.1 hother
    exact fun hsame => hnew path hpath (Path.same_symm hsame)
  ordered := by
    refine List.pairwise_append.2 ⟨h.ordered.imp fun hbefore => hbefore.concat location,
      List.pairwise_singleton _ _, fun path hpath other hother => ?_⟩
    obtain rfl := List.mem_singleton.1 hother
    obtain ⟨first, hfirst⟩ := h.exists_place hpath
    refine ⟨first, leadsTo_concat_iff.2 (.inl hfirst), fun place hplace => ?_⟩
    obtain hplace | ⟨rfl, -⟩ := leadsTo_concat_iff.1 hplace
    · obtain ⟨known, hknown, hsame⟩ := h.complete place _ hplace
      exact absurd hsame (hnew known hknown)
    · exact hfirst.lt_length

theorem finds_nil (host : Host) (project : String) : Finds host project [] [] where
  existing _ hpath := nomatch hpath
  complete _ _ hplace := absurd hplace.lt_length (Nat.not_lt_zero _)
  once := .nil
  ordered := .nil

/-- A search finds what its locations lead to, whatever they are. -/
theorem finds_discover (host : Host) (project : String) (locations : List Location) :
    Finds host project locations (discover host project locations) := by
  -- By the last location: what was found before it stays where it is.
  induction locations using List.reverseRecOn with
  | nil => exact finds_nil host project
  | append_singleton locations location ih =>
    cases hcandidate : location.candidate? host project with
    | none =>
      rw [discover_concat_none locations hcandidate]
      exact ih.pass fun file hfile => nomatch hcandidate.symm.trans hfile
    | some file =>
      rw [discover_concat_some locations hcandidate]
      split
      · next hadds => exact ih.add hcandidate hadds.1 hadds.2
      · next hnone =>
        refine ih.pass fun other hother hfile => ?_
        obtain rfl := Option.some.inj (hcandidate.symm.trans hother)
        simpa [hfile] using hnone

end Step

section Priority

variable {found : List String}

/-- No file encloses itself: its first location has none before it. -/
theorem Encloses.not_same (h : Encloses host project locations path other) :
    ¬Path.same path other = true := by
  obtain ⟨⟨place, hplace⟩, hbetween⟩ := h
  intro hsame
  induction place using Nat.strongRecOn with
  | ind place ih =>
    obtain ⟨before, hlt, hbefore⟩ := (hbetween place hplace).1
    exact ih before hlt (hbefore.congr hsame)

theorem Encloses.congr (h : Encloses host project locations path other) {found : String}
    (hsame : Path.same path found = true) : Encloses host project locations found other := by
  refine ⟨h.1, fun place hplace => ?_⟩
  obtain ⟨⟨before, hbefore, hleads⟩, after, hafter, hleadsAfter⟩ := h.2 place hplace
  exact ⟨⟨before, hbefore, hleads.congr hsame⟩, after, hafter, hleadsAfter.congr hsame⟩

theorem Encloses.not_foundBefore (h : Encloses host project locations path other)
    {found known : String} (hfound : Path.same path found = true)
    (hknown : Path.same other known = true) :
    ¬FoundBefore host project locations known found := by
  rintro ⟨first, hfirst, hbefore⟩
  obtain ⟨before, hlt, hplace⟩ := (h.2 first (hfirst.congr (Path.same_symm hknown))).1
  exact Nat.lt_asymm hlt (hbefore before (hplace.congr hfound))

theorem Encloses.not_outranked (h : Encloses host project locations path other)
    {found known : String} (hfound : Path.same path found = true)
    (hknown : Path.same other known = true) :
    ¬Outranked host project locations found known := by
  rintro ⟨last, hlast, hbefore⟩
  obtain ⟨after, hlt, hplace⟩ := (h.2 last (hlast.congr (Path.same_symm hknown))).2
  exact Nat.lt_asymm hlt (hbefore after (hplace.congr hfound))

/-- A file that is found before another has the lower priority, or encloses it. -/
theorem FoundBefore.outranked_or_encloses (h : FoundBefore host project locations path other)
    (hother : ∃ place, LeadsTo host project locations place other) :
    Outranked host project locations path other ∨ Encloses host project locations path other := by
  obtain ⟨first, hfirst, hbefore⟩ := h
  by_cases hafter : ∀ place, LeadsTo host project locations place other →
      ∃ after > place, LeadsTo host project locations after path
  · exact .inr ⟨hother, fun place hplace =>
      ⟨⟨first, hbefore place hplace, hfirst⟩, hafter place hplace⟩⟩
  · push Not at hafter
    obtain ⟨last, hlast, hnone⟩ := hafter
    refine .inl ⟨last, hlast, fun place hplace => ?_⟩
    have hne : place ≠ last := by
      rintro rfl
      exact Nat.lt_irrefl first (hbefore first (hfirst.congr (hplace.same hlast)))
    exact Nat.lt_of_le_of_ne (Nat.le_of_not_lt fun hlt => hnone place hlt hplace) hne

/-- The order in which files are found is the order of their priorities unless one of them encloses
another. -/
theorem Finds.pairwise_outranked_iff (h : Finds host project locations found) :
    found.Pairwise (Outranked host project locations) ↔
      ¬∃ path other, Encloses host project locations path other := by
  constructor
  · rintro hranked ⟨path, other, hencloses⟩
    obtain ⟨place, hplace⟩ := hencloses.1
    obtain ⟨before, -, hbefore⟩ := (hencloses.2 place hplace).1
    obtain ⟨outer, houter, hpath⟩ := h.complete before path hbefore
    obtain ⟨inner, hinner, hother⟩ := h.complete place other hplace
    -- Whichever of the two was found first, one of the orders contradicts the enclosure.
    have hahead : found.Pairwise fun a b =>
        ¬(Path.same path a = true ∧ Path.same other b = true) :=
      hranked.imp fun houtranked ⟨hfirst, hsecond⟩ =>
        hencloses.not_outranked hfirst hsecond houtranked
    have hbehind : found.Pairwise fun a b =>
        ¬(Path.same path b = true ∧ Path.same other a = true) :=
      h.ordered.imp fun hbefore ⟨hfirst, hsecond⟩ =>
        hencloses.not_foundBefore hfirst hsecond hbefore
    have hself : ∀ a ∈ found, ¬(Path.same path a = true ∧ Path.same other a = true) :=
      fun a _ hsame => hencloses.not_same (Path.same_trans hsame.1 (Path.same_symm hsame.2))
    exact List.Pairwise.forall_of_forall_of_flip hself hahead hbehind houter hinner
      ⟨hpath, hother⟩
  · intro hnone
    refine h.ordered.imp_of_mem fun {path other} _ hother hbefore => ?_
    exact (hbefore.outranked_or_encloses (h.exists_place hother)).resolve_right
      fun hencloses => hnone ⟨path, other, hencloses⟩

/-- What is found last is the file of the last location that leads to any, unless that file
encloses another. -/
theorem Finds.getLast?_iff (h : Finds host project locations found)
    (hpath : LeadsTo host project locations place path)
    (hlast : ∀ later other, LeadsTo host project locations later other → later ≤ place) :
    (∃ last, found.getLast? = some last ∧ Path.same path last = true) ↔
      ¬∃ other, Encloses host project locations path other := by
  constructor
  · rintro ⟨last, hgetLast, hsame⟩ ⟨other, hencloses⟩
    obtain ⟨front, rfl⟩ := List.getLast?_eq_some_iff.1 hgetLast
    obtain ⟨between, hbetween⟩ := hencloses.1
    obtain ⟨known, hknown, hother⟩ := h.complete between other hbetween
    obtain hknown | hknown := List.mem_append.1 hknown
    · have hbefore : FoundBefore host project locations known last :=
        (List.pairwise_append.1 h.ordered).2.2 known hknown last (List.mem_singleton_self last)
      exact hencloses.not_foundBefore hsame hother hbefore
    · obtain rfl := List.mem_singleton.1 hknown
      exact hencloses.not_same (Path.same_trans hsame (Path.same_symm hother))
  · intro hnone
    obtain ⟨known, hknown, hsame⟩ := h.complete place path hpath
    obtain ⟨front, last, rfl⟩ : ∃ front last, found = front ++ [last] :=
      ⟨_, _, (List.dropLast_concat_getLast (List.ne_nil_of_mem hknown)).symm⟩
    refine ⟨last, by simp, ?_⟩
    obtain hknown | hknown := List.mem_append.1 hknown
    · have hbefore : FoundBefore host project locations known last :=
        (List.pairwise_append.1 h.ordered).2.2 known hknown last (List.mem_singleton_self last)
      obtain ⟨later, hlater, hoffset⟩ | hencloses :=
        hbefore.outranked_or_encloses (h.exists_place (by simp))
      · have hlt := hoffset place (hpath.congr hsame)
        exact absurd (hlast later last hlater) (Nat.not_le_of_lt hlt)
      · exact absurd ⟨last, hencloses.congr (Path.same_symm hsame)⟩ hnone
    · obtain rfl := List.mem_singleton.1 hknown
      exact hsame

end Priority

theorem Entry.fileValue?_of_last {files : List String} {last : String} {snapshot : Snapshot}
    (hload : Snapshot.load host (files ++ [last]) = .ok snapshot)
    (haccess : snapshot.checkAccess = .ok ()) {entry : Entry}
    (hsingle : entry.schema.multi = false) {group : Option String} {texts : List String}
    {text : String}
    (htexts : entry.textsIn group (host.itemsAt (host.fixPath last)) = texts ++ [text]) :
    entry.fileValue? group (some snapshot) = some (.string text) := by
  obtain ⟨rfl, hitems⟩ := Snapshot.hasItems_of_load hload haccess
  have hlayers := Snapshot.layers_ofReadings host fun file hfile => ⟨_, hitems file hfile⟩
  rw [Entry.fileValue?_single hlayers hsingle, List.map_append, List.map_singleton, htexts,
    lastText?_append (List.forall_mem_nil _)]
  rfl

/-- A search finds every file that its locations lead to, once, in the order of the first
locations. This is the order of their priorities, which the last locations decide, exactly if no
file encloses another; and the file of the last location that leads to any is found last exactly if
it encloses none. Whatever file is found last, its values win over those of the others. -/
theorem searched_in_order (host : Host) (project : String) (locations : List Location) :
    Finds host project locations (discover host project locations) ∧
    ((discover host project locations).Pairwise (Outranked host project locations) ↔
      ¬∃ path other, Encloses host project locations path other) ∧
    (∀ place path, LeadsTo host project locations place path →
      (∀ later other, LeadsTo host project locations later other → later ≤ place) →
        ((∃ last, (discover host project locations).getLast? = some last ∧
            Path.same path last = true) ↔
          ¬∃ other, Encloses host project locations path other)) ∧
    ∀ last snapshot, (discover host project locations).getLast? = some last →
      Snapshot.load host (discover host project locations) = .ok snapshot →
      snapshot.checkAccess = .ok () →
        ∀ (entry : Entry) (group : Option String) (texts : List String) (text : String),
          entry.schema.multi = false →
            entry.textsIn group (host.itemsAt (host.fixPath last)) = texts ++ [text] →
              entry.fileValue? group (some snapshot) = some (.string text) := by
  have hfinds := finds_discover host project locations
  refine ⟨hfinds, hfinds.pairwise_outranked_iff, fun _ _ => hfinds.getLast?_iff, ?_⟩
  intro last snapshot hlast hload haccess entry group texts text hsingle htexts
  obtain ⟨files, hfiles⟩ := List.getLast?_eq_some_iff.1 hlast
  rw [hfiles] at hload
  exact Entry.fileValue?_of_last hload haccess hsingle htexts

namespace Sample

/-- Two files of a project, in different directories, on a host without a platform directory. -/
def twoFiles : Host :=
  { ((({} : FileTree).add "/low/zen.conf" (.file "[DEFAULT]\nport = 80\n".toUTF8)).add
      "/high/zen.conf" (.file "[DEFAULT]\nport = 90\n".toUTF8)).host "/" "/" with
    platform := fun _ => none }

/-- A search that comes to the lower directory twice, in two spellings, before the higher one. -/
def ascending : List Location :=
  [.directory "/low", .platform, .directory "//low/.", .directory "/high"]

/-- A search that returns to the directory that it started with. -/
def returning : List Location :=
  [.directory "/high", .directory "/low", .directory "/high"]

end Sample

open Sample in
/-- A file that is come upon twice is found once, a location without a directory is passed over,
and the last file wins. -/
theorem searched_in_order_twice :
    discover twoFiles "zen" ascending = ["/low/zen.conf", "/high/zen.conf"] ∧
      LeadsTo twoFiles "zen" ascending 3 "/high/zen.conf" ∧
      (¬∃ other, Encloses twoFiles "zen" ascending "/high/zen.conf" other) ∧
      ∃ snapshot, Snapshot.load twoFiles (discover twoFiles "zen" ascending) = .ok snapshot ∧
        Entry.fileValue? { schema := port } none (some snapshot) = some (.string "90") := by
  have hfound : discover twoFiles "zen" ascending = ["/low/zen.conf", "/high/zen.conf"] := by
    decide
  have hlast : LeadsTo twoFiles "zen" ascending 3 "/high/zen.conf" :=
    ⟨.directory "/high", rfl, "/high/zen.conf", by decide, by decide, by decide⟩
  have hgiven : (discover twoFiles "zen" ascending).getLast? = some "/high/zen.conf" := by
    rw [hfound]
    rfl
  have hload : Snapshot.load twoFiles (discover twoFiles "zen" ascending) =
      .ok (Snapshot.ofReadings (twoFiles.readings ["/low/zen.conf", "/high/zen.conf"])) := by
    rw [hfound]
    rfl
  obtain ⟨-, -, hgetLast, hwins⟩ := searched_in_order twoFiles "zen" ascending
  refine ⟨hfound, hlast, (hgetLast 3 _ hlast ?_).1 ⟨_, hgiven, Path.same_refl _⟩, _, hload, ?_⟩
  · exact fun later other hlater => Nat.le_of_lt_succ hlater.lt_length
  · exact hwins _ _ hgiven hload rfl { schema := port } none [] "90" rfl rfl

open Sample in
/-- Found files are not in the order of their priorities where a search returns to a directory: the
file there, which its last location leads to, is found first and loses. -/
theorem returned_to_in_vain :
    discover twoFiles "zen" returning = ["/high/zen.conf", "/low/zen.conf"] ∧
      LeadsTo twoFiles "zen" returning 2 "/high/zen.conf" ∧
      ¬(discover twoFiles "zen" returning).Pairwise (Outranked twoFiles "zen" returning) := by
  have hfirst : LeadsTo twoFiles "zen" returning 0 "/high/zen.conf" :=
    ⟨.directory "/high", rfl, "/high/zen.conf", by decide, by decide, by decide⟩
  have hmiddle : LeadsTo twoFiles "zen" returning 1 "/low/zen.conf" :=
    ⟨.directory "/low", rfl, "/low/zen.conf", by decide, by decide, by decide⟩
  have hlast : LeadsTo twoFiles "zen" returning 2 "/high/zen.conf" :=
    ⟨.directory "/high", rfl, "/high/zen.conf", by decide, by decide, by decide⟩
  have hencloses : Encloses twoFiles "zen" returning "/high/zen.conf" "/low/zen.conf" := by
    refine ⟨⟨1, hmiddle⟩, fun place hplace => ?_⟩
    have hlt : place < 3 := hplace.lt_length
    have hzero : place ≠ 0 := by
      rintro rfl
      exact absurd (hfirst.same hplace) (by decide)
    have htwo : place ≠ 2 := by
      rintro rfl
      exact absurd (hlast.same hplace) (by decide)
    exact ⟨⟨0, Nat.pos_of_ne_zero hzero, hfirst⟩, 2, by omega, hlast⟩
  refine ⟨by decide, hlast, fun hranked => ?_⟩
  exact (finds_discover twoFiles "zen" returning).pairwise_outranked_iff.1 hranked
    ⟨_, _, hencloses⟩

end LayeredConfig
