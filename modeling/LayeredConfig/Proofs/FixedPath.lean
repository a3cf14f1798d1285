import LayeredConfig.Path
import LayeredConfig.Proofs.Trimming

/-!
# Fixed paths

Fixing a path spells it in one way (`spelled`): one slash at the start, or two
where two were given, names with one slash between them, and one slash at the end
where a directory is asked for. A path spelled so is left alone when it is fixed
again, wherever the current directory and the home directory are by then: it
starts with a slash, so neither has a part in it, and its components are its
names.

The current directory, where it is known, must itself be spelled so. What a system
reports as the current directory is (`IsTidy`): it is absolute and has neither `.`
nor repeated slashes. Fixed paths are tidy in the same sense, but for the second
slash at the start that some of them have. Without a current directory a relative
path stays as it is, and may be fixed to something else later.
-/

namespace LayeredConfig.Path

/-- A component that is kept: not empty, not `.`, and without a slash. -/
structure IsName (name : List Char) : Prop where
  ne_nil : name ≠ []
  ne_dot : name ≠ ['.']
  slash_not_mem : '/' ∉ name

theorem isName_of_mem_components {path name : List Char} (h : name ∈ components path) :
    IsName name := by
  obtain ⟨hmem, hkept⟩ := List.mem_filter.1 h
  simp only [Bool.and_eq_true, decide_eq_true_eq] at hkept
  exact ⟨hkept.1, hkept.2, Text.separator_not_mem_cut path name hmem⟩

theorem IsName.head?_ne {name : List Char} (h : IsName name) : name.head? ≠ some '/' :=
  fun hhead => h.slash_not_mem (List.mem_of_head? hhead)

/-- Names, each with a slash before it. -/
def slashed (names : List (List Char)) : List Char :=
  names.flatMap fun name => '/' :: name

theorem slashed_concat (names : List (List Char)) (name : List Char) :
    slashed (names ++ [name]) = slashed names ++ '/' :: name := by
  simp [slashed]

/-- How a path is spelled that starts with one slash or two, has these names, and ends with a
slash or not. The root has no other slash than its last. -/
def spelled (doubled : Bool) (names : List (List Char)) (closed : Bool) : List Char :=
  (if doubled then ['/'] else []) ++ slashed names ++
    (if closed || names.isEmpty then ['/'] else [])

section Components

theorem components_slash (path : List Char) : components ('/' :: path) = components path := by
  rw [components, Text.cut, if_pos rfl, List.filter_cons_of_neg (by simp)]
  rfl

theorem components_name_append {name rest : List Char} (h : IsName name)
    (hrest : rest = [] ∨ rest.head? = some '/') :
    components (name ++ rest) = name :: components rest := by
  have hkept : (decide (name ≠ []) && decide (name ≠ ['.'])) = true := by
    simp [h.ne_nil, h.ne_dot]
  cases rest with
  | nil =>
    rw [List.append_nil, components, Text.cut_of_not_mem h.slash_not_mem,
      List.filter_cons, if_pos hkept]
    rfl
  | cons c rest =>
    have hc : c = '/' := by simpa using hrest
    rw [hc, components_slash, components, Text.cut_append h.slash_not_mem,
      List.filter_cons, if_pos hkept]
    rfl

theorem head?_slashed_append {names : List (List Char)} {rest : List Char}
    (hrest : rest = [] ∨ rest.head? = some '/') :
    slashed names ++ rest = [] ∨ (slashed names ++ rest).head? = some '/' := by
  cases names with
  | nil => exact hrest
  | cons name more => exact .inr rfl

theorem components_slashed_append {names : List (List Char)} (h : ∀ name ∈ names, IsName name)
    {rest : List Char} (hrest : rest = [] ∨ rest.head? = some '/') :
    components (slashed names ++ rest) = names ++ components rest := by
  induction names with
  | nil => rfl
  | cons name more ih =>
    obtain ⟨hname, hmore⟩ := List.forall_mem_cons.1 h
    have hspelled : slashed (name :: more) ++ rest = '/' :: (name ++ (slashed more ++ rest)) := by
      simp [slashed]
    rw [hspelled, components_slash, components_name_append hname (head?_slashed_append hrest),
      ih hmore, List.cons_append]

/-- The components of a path are the names that it is spelled with. -/
theorem components_spelled (doubled : Bool) {names : List (List Char)}
    (h : ∀ name ∈ names, IsName name) (closed : Bool) :
    components (spelled doubled names closed) = names := by
  have hend : components (slashed names ++ if closed || names.isEmpty then ['/'] else []) =
      names := by
    split
    · rw [components_slashed_append h (.inr rfl), components_slash]
      exact List.append_nil names
    · rw [components_slashed_append h (.inl rfl)]
      exact List.append_nil names
  rw [spelled, List.append_assoc]
  cases doubled with
  | false => exact hend
  | true =>
    rw [if_pos rfl, List.singleton_append, components_slash]
    exact hend

end Components

section Joining

variable {names : List (List Char)} (doubled closed : Bool)

theorem spelled_ne_nil : spelled doubled names closed ≠ [] := by
  cases names with
  | nil => simp [spelled]
  | cons name more => simp [spelled, slashed]

theorem getLast?_spelled (h : ∀ name ∈ names, IsName name) :
    (spelled doubled names closed).getLast? = some '/' ↔ (closed || names.isEmpty) = true := by
  rw [spelled]
  cases hend : closed || names.isEmpty with
  | true =>
    rw [if_pos rfl, List.getLast?_concat]
    exact iff_of_true rfl rfl
  | false =>
    obtain ⟨-, hnames⟩ := Bool.or_eq_false_iff.1 hend
    obtain ⟨before, last, rfl⟩ : ∃ before last, names = before ++ [last] :=
      ⟨_, _, (List.dropLast_concat_getLast (by simpa using hnames)).symm⟩
    have hlast : IsName last := h last (by simp)
    have hslash : last.getLast? ≠ some '/' := fun heq =>
      hlast.slash_not_mem (List.mem_of_getLast? heq)
    obtain ⟨c, hc⟩ := Option.ne_none_iff_exists'.1 (mt List.getLast?_eq_none_iff.1 hlast.ne_nil)
    rw [hc] at hslash
    rw [if_neg Bool.false_ne_true, List.append_nil, slashed_concat, List.getLast?_append,
      List.getLast?_append, List.getLast?_cons, hc]
    simpa using hslash

theorem join_spelled (h : ∀ name ∈ names, IsName name) {rest : List Char}
    (hrest : rest.head? ≠ some '/') :
    join (spelled doubled names closed) rest = spelled doubled names true ++ rest := by
  have hbelow : ¬(rest.head? = some '/' || spelled doubled names closed = []) = true := by
    simp [hrest, spelled_ne_nil]
  have hlast := getLast?_spelled doubled closed h
  rw [join, if_neg hbelow]
  cases hend : closed || names.isEmpty with
  | true =>
    rw [if_pos (hlast.2 hend)]
    simp [spelled, hend]
  | false =>
    rw [if_neg (mt hlast.1 (by simp [hend]))]
    simp [spelled, hend]

theorem foldl_join_spelled (h : ∀ name ∈ names, IsName name) {more : List (List Char)}
    (hmore : ∀ name ∈ more, IsName name) :
    more.foldl join (spelled doubled names closed) =
      spelled doubled (names ++ more) (closed && more.isEmpty) := by
  induction more generalizing names closed with
  | nil => simp
  | cons name rest ih =>
    obtain ⟨hname, hrest⟩ := List.forall_mem_cons.1 hmore
    have hnames : ∀ other ∈ names ++ [name], IsName other :=
      List.forall_mem_append.2 ⟨h, by simpa using hname⟩
    have hjoin : join (spelled doubled names closed) name =
        spelled doubled (names ++ [name]) false := by
      rw [join_spelled doubled closed h hname.head?_ne]
      simp [spelled, slashed_concat]
    rw [List.foldl_cons, hjoin, ih false hnames hrest]
    simp

theorem join_spelled_nil (h : ∀ name ∈ names, IsName name) :
    join (spelled doubled names closed) [] = spelled doubled names true := by
  rw [join_spelled doubled closed h (by simp), List.append_nil]

end Joining

/-- A path is spelled as a fixed path is. -/
def IsFixed (path : List Char) : Prop :=
  ∃ doubled names closed, (∀ name ∈ names, IsName name) ∧ path = spelled doubled names closed

section Fixing

theorem start_spelled (cwd : Option (List Char)) (doubled : Bool) {names : List (List Char)}
    (h : ∀ name ∈ names, IsName name) (closed : Bool) :
    start cwd (spelled doubled names closed) = some (spelled doubled [] true) := by
  cases names with
  | nil =>
    cases doubled with
    | false => simp [spelled, slashed, start]
    | true => simp [spelled, slashed, start]
  | cons name more =>
    have hname : IsName name := h name List.mem_cons_self
    obtain ⟨c, rest, rfl⟩ := List.exists_cons_of_ne_nil hname.ne_nil
    have hc : c ≠ '/' := fun heq => hname.slash_not_mem (heq ▸ List.mem_cons_self)
    cases doubled with
    | false => simp [spelled, slashed, start, hc]
    | true => simp [spelled, slashed, start, hc]

/-- A path starts at the root or at the current directory, where that is known. -/
theorem isFixed_of_start {cwd : Option (List Char)} (hcwd : ∀ base ∈ cwd, IsFixed base)
    {path base : List Char} (h : start cwd path = some base) : IsFixed base := by
  unfold start at h
  split at h
  · cases h
  · cases h
    exact ⟨false, [], true, by simp, rfl⟩
  · cases h
    exact ⟨true, [], true, by simp, rfl⟩
  · cases h
    exact ⟨false, [], true, by simp, rfl⟩
  · exact hcwd base h

theorem absolute_eq_none_iff {cwd : Option (List Char)} {path : List Char} :
    absolute cwd path = none ↔ path = [] ∨ cwd = none ∧ path.head? ≠ some '/' := by
  rw [absolute, Option.map_eq_none_iff]
  unfold start
  split
  · simp
  · simp
  · simp
  · simp
  · next hempty _ _ hslash =>
    have hhead : path.head? ≠ some '/' := by
      intro hhead
      obtain ⟨rest, rfl⟩ := List.head?_eq_some_iff.1 hhead
      exact hslash rest rfl
    have hne : path ≠ [] := hempty
    simp [hhead, hne]

theorem isFixed_of_absolute {cwd : Option (List Char)} (hcwd : ∀ base ∈ cwd, IsFixed base)
    {path fixed : List Char} (h : absolute cwd path = some fixed) : IsFixed fixed := by
  rw [absolute] at h
  obtain ⟨base, hstart, rfl⟩ := Option.map_eq_some_iff.1 h
  obtain ⟨doubled, names, closed, hnames, rfl⟩ := isFixed_of_start hcwd hstart
  have hcomponents : ∀ name ∈ components path, IsName name := fun _ => isName_of_mem_components
  have hall : ∀ name ∈ names ++ components path, IsName name :=
    List.forall_mem_append.2 ⟨hnames, hcomponents⟩
  simp only [foldl_join_spelled doubled closed hnames hcomponents]
  split
  · exact ⟨doubled, _, true, hall, join_spelled_nil doubled _ hall⟩
  · exact ⟨doubled, _, _, hall, rfl⟩

theorem absolute_of_isFixed {path : List Char} (h : IsFixed path) (cwd : Option (List Char)) :
    absolute cwd path = some path := by
  obtain ⟨doubled, names, closed, hnames, rfl⟩ := h
  have hnone : ∀ name ∈ ([] : List (List Char)), IsName name := by simp
  have hlast := getLast?_spelled doubled closed hnames
  rw [absolute, start_spelled cwd doubled hnames closed, Option.map_some,
    components_spelled doubled hnames closed]
  refine congrArg some ?_
  simp only [foldl_join_spelled doubled true hnone hnames, List.nil_append, Bool.true_and]
  split
  · next hclosed =>
    rw [join_spelled_nil doubled _ hnames]
    simp [spelled, hlast.1 hclosed]
  · next hopen =>
    obtain ⟨hclosed, hsome⟩ := Bool.or_eq_false_iff.1 (Bool.eq_false_iff.2 (mt hlast.2 hopen))
    simp [spelled, hclosed, hsome]

theorem expandHome_of_head? {path : List Char} (h : path.head? = some '/')
    (home : Option (List Char)) : expandHome home path = path := by
  cases path with
  | nil => cases h
  | cons c rest =>
    cases h
    cases home with
    | none => rfl
    | some home =>
      have hcut : Text.cut '/' ('/' :: rest) = [] :: Text.cut '/' rest := by
        rw [Text.cut, if_pos rfl]
      simp only [expandHome, hcut]

theorem IsFixed.head? {path : List Char} (h : IsFixed path) : path.head? = some '/' := by
  obtain ⟨doubled, names, closed, -, rfl⟩ := h
  cases doubled with
  | true => rfl
  | false =>
    cases names with
    | nil => simp [spelled, slashed]
    | cons name more => rfl

end Fixing

/-- A path is absolute and has neither `.` nor repeated slashes. -/
structure IsTidy (path : List Char) : Prop where
  rooted : path.head? = some '/'
  single : ¬['/', '/'] <:+: path
  plain : ['.'] ∉ Text.cut '/' path

section Tidy

/-- Below a slash a tidy text is names, with a slash after each but perhaps the last. -/
theorem exists_names {text : List Char} (hsingle : ¬['/', '/'] <:+: '/' :: text)
    (hplain : ['.'] ∉ Text.cut '/' text) :
    ∃ names closed, (∀ name ∈ names, IsName name) ∧
      '/' :: text = slashed names ++ if closed || names.isEmpty then ['/'] else [] := by
  induction hpieces : Text.cut '/' text generalizing text with
  | nil => exact absurd hpieces (Text.cut_ne_nil '/' text)
  | cons piece rest ih =>
    have htext := Text.intercalate_cut '/' text
    have hslash : ∀ piece ∈ Text.cut '/' text, '/' ∉ piece := Text.separator_not_mem_cut text
    rw [hpieces] at htext hslash hplain
    obtain ⟨hpiece, hrest⟩ := List.forall_mem_cons.1 hslash
    have hdot : piece ≠ ['.'] := fun heq => hplain (heq ▸ List.mem_cons_self)
    cases rest with
    | nil =>
      rw [List.intercalate_singleton] at htext
      by_cases hempty : piece = []
      · refine ⟨[], true, by simp, ?_⟩
        rw [← htext, hempty]
        rfl
      · refine ⟨[piece], false, ?_, ?_⟩
        · rintro name hname
          rw [List.mem_singleton.1 hname]
          exact ⟨hempty, hdot, hpiece⟩
        · simp [← htext, slashed]
    | cons next more =>
      rw [List.intercalate_cons_cons, List.append_assoc, List.singleton_append] at htext
      have hempty : piece ≠ [] := by
        rintro rfl
        exact hsingle ⟨[], _, by rw [← htext]; rfl⟩
      have hname : IsName piece := ⟨hempty, hdot, hpiece⟩
      obtain ⟨hnext, hmore⟩ := List.forall_mem_cons.1 hrest
      have hcut := Text.cut_intercalate hnext hmore
      obtain ⟨names, closed, hnames, hspelled⟩ := ih
        (fun hpart => hsingle (hpart.trans ⟨'/' :: piece, [], by simp [← htext]⟩))
        (fun hmem => hplain (List.mem_cons_of_mem piece (hcut ▸ hmem))) hcut
      refine ⟨piece :: names, closed || names.isEmpty, ?_, ?_⟩
      · exact List.forall_mem_cons.2 ⟨hname, hnames⟩
      · rw [← htext, hspelled]
        simp [slashed]

theorem IsTidy.isFixed {path : List Char} (h : IsTidy path) : IsFixed path := by
  obtain ⟨hrooted, hsingle, hplain⟩ := h
  cases path with
  | nil => cases hrooted
  | cons c text =>
    cases hrooted
    rw [Text.cut, if_pos rfl] at hplain
    obtain ⟨names, closed, hnames, htext⟩ :=
      exists_names hsingle fun hmem => hplain (List.mem_cons_of_mem [] hmem)
    exact ⟨false, names, closed, hnames, htext⟩

theorem isFixed_of_mem_map {cwd : Option String}
    (h : ∀ directory ∈ cwd, IsTidy directory.toList) :
    ∀ base ∈ cwd.map String.toList, IsFixed base := by
  rintro base hbase
  obtain ⟨directory, hdirectory, rfl⟩ := Option.map_eq_some_iff.1 hbase
  exact (h directory hdirectory).isFixed

theorem infix_slashes_append {name : List Char} (h : '/' ∉ name) (rest : List Char) :
    ['/', '/'] <:+: name ++ rest ↔ ['/', '/'] <:+: rest := by
  induction name with
  | nil => rfl
  | cons c more ih =>
    obtain ⟨hc, hmore⟩ := not_or.1 (mt List.mem_cons.2 h)
    have hhere : ¬['/', '/'] <+: c :: (more ++ rest) := fun hstart =>
      hc (List.cons_prefix_cons.1 hstart).1
    rw [List.cons_append, List.infix_cons_iff, ih hmore]
    exact or_iff_right hhere

theorem single_slashed_append {names : List (List Char)} (h : ∀ name ∈ names, IsName name)
    {rest : List Char} (hrest : ¬['/', '/'] <:+: rest) :
    ¬['/', '/'] <:+: slashed names ++ rest := by
  induction names with
  | nil => exact hrest
  | cons name more ih =>
    obtain ⟨hname, hmore⟩ := List.forall_mem_cons.1 h
    have hspelled : slashed (name :: more) ++ rest = '/' :: (name ++ (slashed more ++ rest)) := by
      simp [slashed]
    rw [hspelled, List.infix_cons_iff, infix_slashes_append hname.slash_not_mem]
    rintro (hstart | hinfix)
    · obtain ⟨c, text, rfl⟩ := List.exists_cons_of_ne_nil hname.ne_nil
      obtain ⟨hc, -⟩ := List.cons_prefix_cons.1 (List.cons_prefix_cons.1 hstart).2
      exact hname.slash_not_mem (hc ▸ List.mem_cons_self)
    · exact ih hmore hinfix

theorem plain_slashed_append {names : List (List Char)} (h : ∀ name ∈ names, IsName name)
    {rest : List Char} (hrest : rest = [] ∨ rest.head? = some '/')
    (hplain : ['.'] ∉ Text.cut '/' rest) : ['.'] ∉ Text.cut '/' (slashed names ++ rest) := by
  induction names with
  | nil => exact hplain
  | cons name more ih =>
    obtain ⟨hname, hmore⟩ := List.forall_mem_cons.1 h
    have hspelled : slashed (name :: more) ++ rest = '/' :: (name ++ (slashed more ++ rest)) := by
      simp [slashed]
    have hnext : slashed more ++ rest = [] ∨ (slashed more ++ rest).head? = some '/' :=
      head?_slashed_append hrest
    have hlater := ih hmore
    rw [hspelled, Text.cut, if_pos rfl]
    cases hbelow : slashed more ++ rest with
    | nil =>
      rw [List.append_nil, Text.cut_of_not_mem hname.slash_not_mem]
      simp [hname.ne_dot.symm]
    | cons c text =>
      rw [hbelow] at hnext hlater
      obtain rfl : c = '/' := by simpa using hnext
      rw [Text.cut, if_pos rfl, List.mem_cons, not_or] at hlater
      rw [Text.cut_append hname.slash_not_mem]
      simp [hname.ne_dot.symm, hlater.2]

theorem isTidy_spelled {names : List (List Char)} (h : ∀ name ∈ names, IsName name)
    (closed : Bool) : IsTidy (spelled false names closed) where
  rooted := IsFixed.head? ⟨false, names, closed, h, rfl⟩
  single := by
    refine single_slashed_append h ?_
    split
    · decide
    · decide
  plain := by
    refine plain_slashed_append h ?_ ?_
    · split
      · exact .inr rfl
      · exact .inl rfl
    · split
      · decide
      · decide

/-- A fixed path is tidy, but for a second slash at its start. -/
theorem IsFixed.isTidy {path : List Char} (h : IsFixed path) :
    IsTidy path ∨ ∃ rest, path = '/' :: rest ∧ IsTidy rest := by
  obtain ⟨doubled, names, closed, hnames, rfl⟩ := h
  cases doubled with
  | false => exact .inl (isTidy_spelled hnames closed)
  | true => exact .inr ⟨_, rfl, isTidy_spelled hnames closed⟩

end Tidy

/-- A path that is fixed once stays as it is, also where the current directory and the home
directory have changed since, unless it could not be made absolute. -/
theorem fix_fix {home cwd : Option String} (hcwd : ∀ directory ∈ cwd, IsTidy directory.toList)
    {path : String} (hpath : cwd = none → (fix home cwd path).toList.head? = some '/')
    (home' cwd' : Option String) :
    fix home' cwd' (fix home cwd path) = fix home cwd path := by
  refine congrArg String.ofList ?_
  rw [fix, String.toList_ofList] at hpath ⊢
  cases habsolute : absolute (cwd.map String.toList)
      (expandHome (home.map String.toList) path.toList) with
  | some fixed =>
    have hfixed : IsFixed fixed := isFixed_of_absolute (isFixed_of_mem_map hcwd) habsolute
    rw [Option.getD_some, expandHome_of_head? hfixed.head?, absolute_of_isFixed hfixed,
      Option.getD_some]
  | none =>
    rw [habsolute, Option.getD_none] at hpath
    obtain hempty | ⟨hunknown, hrelative⟩ := absolute_eq_none_iff.1 habsolute
    · rw [hempty]
      cases home' with
      | none => rfl
      | some home' => rfl
    · exact absurd (hpath (Option.map_eq_none_iff.1 hunknown)) hrelative

theorem join_ne_nil {base : List Char} (h : base ≠ []) (path : List Char) :
    join base path ≠ [] := by
  unfold join
  split
  · next halone =>
    rintro rfl
    simp [h] at halone
  · split
    · simp [h]
    · simp

theorem expandHome_ne_nil {home : Option (List Char)} {path : List Char}
    (hhome : home ≠ some []) (hpath : path ≠ []) : expandHome home path ≠ [] := by
  unfold expandHome
  split
  · next base _ _ => exact join_ne_nil (fun hbase => hhome (congrArg some hbase)) _
  · exact hpath

/-- A path is fixed for good. It stays as it is when it is fixed again, also where the
current directory and the home directory have changed since; and unless there was no path at all
it is absolute and has neither `.` nor repeated slashes, but for two at its start. -/
theorem fixed_for_good {home : Option String} {cwd : String} (hcwd : IsTidy cwd.toList)
    (hhome : ∀ directory ∈ home, directory.toList.head? = some '/') (path : String) :
    (∀ home' cwd', fix home' cwd' (fix home (some cwd) path) = fix home (some cwd) path) ∧
      (path ≠ "" → IsTidy (fix home (some cwd) path).toList ∨
        ∃ rest, (fix home (some cwd) path).toList = '/' :: rest ∧ IsTidy rest) := by
  have hknown : ∀ directory ∈ some cwd, IsTidy directory.toList := by simpa using hcwd
  refine ⟨fix_fix hknown (fun hnone => nomatch hnone), fun hpath => ?_⟩
  have hhome : home.map String.toList ≠ some [] := by
    intro hnil
    obtain ⟨directory, hdirectory, hempty⟩ := Option.map_eq_some_iff.1 hnil
    have hhead := hhome directory hdirectory
    rw [hempty] at hhead
    cases hhead
  have hexpanded : expandHome (home.map String.toList) path.toList ≠ [] :=
    expandHome_ne_nil hhome (by simpa using hpath)
  rw [fix, String.toList_ofList]
  cases habsolute : absolute ((some cwd).map String.toList)
      (expandHome (home.map String.toList) path.toList) with
  | some fixed => exact (isFixed_of_absolute (isFixed_of_mem_map hknown) habsolute).isTidy
  | none => simp [absolute_eq_none_iff, hexpanded] at habsolute

/-- A path below the home directory, and two slashes at the start, which stay two. -/
theorem fixed_for_good_spellings :
    IsTidy "/srv".toList ∧ "/root".toList.head? = some '/' ∧
      fix (some "/root") (some "/srv") "~//x/./y/" = "/root/x/y" ∧
      fix none (some "/tmp") "/root/x/y" = "/root/x/y" ∧
      fix (some "/root") (some "/srv") "//./a//../b/." = "//a/../b" ∧
      IsTidy "/a/../b".toList := by
  have hcwd : IsTidy "/srv".toList := ⟨by decide, by decide, by decide⟩
  have hroot : "/root".toList.head? = some '/' := rfl
  have hhome : ∀ directory ∈ some "/root", directory.toList.head? = some '/' := by
    rintro _ ⟨⟩
    exact hroot
  have hbelow : fix (some "/root") (some "/srv") "~//x/./y/" = "/root/x/y" := rfl
  have hdouble : fix (some "/root") (some "/srv") "//./a//../b/." = "//a/../b" := rfl
  have hagain := (fixed_for_good hcwd hhome "~//x/./y/").1 none (some "/tmp")
  obtain htidy | ⟨rest, hrest, htidy⟩ :=
    (fixed_for_good hcwd hhome "//./a//../b/.").2 (by decide)
  · rw [hdouble] at htidy
    exact absurd htidy.single (by decide)
  · rw [hdouble] at hrest
    cases hrest
    exact ⟨hcwd, hroot, hbelow, hbelow ▸ hagain, hdouble, htidy⟩

end LayeredConfig.Path
