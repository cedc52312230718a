import PatchLint.Proofs.Files.Canonical
import PatchLint.Proofs.Lists
import PatchLint.Proofs.Vcs.Listed

/-!
Which files a run checks.

Paths that are given stand for files of the working copy, whatever they are written like, and
each of these files is checked once. Without any, the changed files are that the globs choose.

* `Repository.relative_iff`: the text of what a path stands for.
* `FileFilter.selects_iff`: which files the globs choose.
* `Check.selectFiles_selection`: the files that are checked.
-/

namespace PatchLint

open PatchLint.Files (Location)

/-! ### Files that paths stand for -/

namespace Repository

/-- With all links followed, the path leads to the place that the names lead to from the top of
the working copy. -/
def StandsFor (r : Repository) (host : Host) (path : String) (names : Location) : Prop :=
  ∃ root, host.files.canonical host.directory r.root = .ok root ∧
    host.files.canonical host.directory (Files.Path.join host.directory.text path) =
      .ok (root ++ names)

/-- What is joined to a location is an absolute path. -/
theorem isAbsolute_join (dir : Location) (path : String) :
    Files.Path.isAbsolute (Files.Path.join dir.text path) = true := by
  have slash : ∀ rest, Files.Path.isAbsolute (dir.text ++ rest) = true := by
    intro rest
    rw [Files.Path.isAbsolute, Location.text, String.append_assoc, String.toList_append]
    rfl
  unfold Files.Path.join
  split
  · assumption
  split
  · exact slash path
  · rw [String.append_assoc]
    exact slash _

variable {r : Repository} {host : Host} {path : String} {names : Location}

/-- What a path stands for has names only. -/
theorem StandsFor.named (stands : r.StandsFor host path names) : names.Named := by
  obtain ⟨root, -, found⟩ := stands
  obtain ⟨entry, direct⟩ := Files.Tree.canonical_direct (isAbsolute_join host.directory path) found
  exact fun name mem => direct.named name (List.mem_append_right root mem)

/-- A path has a name in the working copy exactly if it stands for a place there. -/
theorem relative_iff {file : String} :
    r.relative host.files host.directory path = .ok file ↔
      ∃ names, r.StandsFor host path names ∧ "/".intercalate names = file := by
  rw [relative, bind_eq_ok]
  constructor
  · rintro ⟨loc, found, rest⟩
    obtain ⟨root, top, rest⟩ := bind_eq_ok.mp rest
    split at rest
    · rename_i names below
      cases rest
      refine ⟨names, ⟨root, mapError_eq_ok.mp top, ?_⟩, rfl⟩
      rw [← Location.below?_eq_some_iff.mp below]
      exact mapError_eq_ok.mp found
    · cases rest
  · rintro ⟨names, ⟨root, top, found⟩, rfl⟩
    refine ⟨root ++ names, mapError_eq_ok.mpr found, ?_⟩
    refine bind_eq_ok.mpr ⟨root, mapError_eq_ok.mpr top, ?_⟩
    rw [Location.below?_eq_some_iff.mpr rfl]
    rfl

end Repository

/-! ### Files that are mentioned -/

namespace Check

/-- The files are the texts of the places that are mentioned: each of them once, in the order of
first mention, and different texts for different places. -/
structure Selection (mentioned : List Location) (files : List String) : Prop where
  mem_iff : ∀ file, file ∈ files ↔ ∃ names ∈ mentioned, "/".intercalate names = file
  apart : ∀ a ∈ mentioned, ∀ b ∈ mentioned, "/".intercalate a = "/".intercalate b → a = b
  ordered : files.Pairwise fun file later =>
    (mentioned.map fun names => "/".intercalate names).idxOf file <
      (mentioned.map fun names => "/".intercalate names).idxOf later

/-- Leaving out repetitions selects each place once: different places have different texts. -/
theorem selection_distinct {mentioned : List Location} (named : ∀ names ∈ mentioned, names.Named) :
    Selection mentioned (distinct (mentioned.map fun names => "/".intercalate names)) where
  mem_iff := fun file => by rw [mem_distinct, List.mem_map]
  apart := fun a mem b mem' => Location.intercalate_injective (named a mem) (named b mem')
  ordered := distinct_ordered _

end Check

/-! ### Files that globs choose -/

namespace FileFilter

/-- One of the globs, those that are blank aside, matches the path. -/
def Matches (globs : List String) (path : String) : Prop :=
  ∃ glob ∈ globs, normalize glob ≠ [] ∧
    ∃ pattern, Glob.Pattern.ofText (normalize glob) = .ok pattern ∧
      pattern.matchesPath path.toUTF8.data.toList = true

/-- The patterns are those of the globs that are not blank. -/
theorem mem_patterns_iff {field : String} {globs : List String} {ps : List Glob.Pattern}
    (read : patterns field globs = .ok ps) {p : Glob.Pattern} :
    p ∈ ps ↔
      ∃ glob ∈ globs, normalize glob ≠ [] ∧ Glob.Pattern.ofText (normalize glob) = .ok p := by
  induction globs generalizing ps with
  | nil =>
      cases read
      simp
  | cons glob globs ih =>
      rw [patterns] at read
      rw [List.exists_mem_cons_iff]
      split at read
      · rename_i blank
        rw [ih read, or_iff_right]
        exact fun both => both.1 (List.isEmpty_iff.mp blank)
      · rename_i other
        obtain ⟨first, ofText, read⟩ := bind_eq_ok.mp read
        obtain ⟨others, readOthers, same⟩ := bind_eq_ok.mp read
        cases same
        rw [mapError_eq_ok] at ofText
        rw [List.mem_cons, ih readOthers, ofText, Except.ok.injEq,
          and_iff_right (mt List.isEmpty_iff.mpr other), eq_comm]

/-- One of the patterns matches exactly if one of the globs does. -/
theorem any_patterns_iff {field : String} {globs : List String} {ps : List Glob.Pattern}
    (read : patterns field globs = .ok ps) (path : String) :
    ps.any (·.matchesPath path.toUTF8.data.toList) = true ↔ Matches globs path := by
  rw [List.any_eq_true]
  constructor
  · rintro ⟨p, mem, found⟩
    obtain ⟨glob, mem, nonempty, ofText⟩ := (mem_patterns_iff read).mp mem
    exact ⟨glob, mem, nonempty, p, ofText, found⟩
  · rintro ⟨glob, mem, nonempty, p, ofText, found⟩
    exact ⟨p, (mem_patterns_iff read).mpr ⟨glob, mem, nonempty, ofText⟩, found⟩

/-- **The files that the globs choose**, of paths without backslashes. -/
theorem selects_iff {included excluded : List String} {f : FileFilter}
    (read : ofGlobs included excluded = .ok f) {path : String} (plain : '\\' ∉ path.toList) :
    f.selects path = true ↔ Matches included path ∧ ¬ Matches excluded path := by
  obtain ⟨inside, readInside, read⟩ := bind_eq_ok.mp read
  obtain ⟨outside, readOutside, same⟩ := bind_eq_ok.mp read
  cases same
  rw [selects, Text.slashed_eq_self_iff.mpr plain, String.ofList_toList, Bool.and_eq_true,
    Bool.not_eq_true', ← Bool.not_eq_true, any_patterns_iff readInside,
    any_patterns_iff readOutside]

end FileFilter

/-! ### Lines of listings -/

namespace Vcs.Git

/-- The name is on a line of the output, the blanks at its end left out and with slashes for its
backslashes. -/
def OnLine (output : Octets) (name : String) : Prop :=
  ∃ line ∈ Text.toolLines output.lossyText.toList, Text.trimEnd line ≠ [] ∧
    String.ofList (Text.slashed (Text.trimEnd line)) = name

/-- The names that are taken from a listing are those on its lines. -/
theorem mem_map_lines {output errors : Octets} {name : String} :
    name ∈ ((Reply.ofOutcome ⟨output, errors, some 0⟩).lines.map fun line =>
      String.ofList (Text.slashed line.toList)) ↔ OnLine output name := by
  simp only [Reply.ofOutcome, Reply.lines, OnLine, List.mem_map, List.mem_filter,
    decide_eq_true_eq]
  constructor
  · rintro ⟨_, ⟨_, ⟨⟨line, mem, rfl⟩, left⟩, rfl⟩, rfl⟩
    exact ⟨line, mem, left, by rw [String.toList_ofList]⟩
  · rintro ⟨line, mem, left, rfl⟩
    exact ⟨_, ⟨_, ⟨⟨line, mem, rfl⟩, left⟩, rfl⟩, by rw [String.toList_ofList]⟩

/-- A name on a line has no backslash left. -/
theorem OnLine.plain {output : Octets} {name : String} (onLine : OnLine output name) :
    '\\' ∉ name.toList := by
  obtain ⟨line, -, -, rfl⟩ := onLine
  rw [String.toList_ofList]
  exact Text.backslash_notMem_slashed _

/-- Of two listings every name on a line of either is read, in order and each once. -/
theorem changedFiles_eq_lines {host : Host} {directory base : String} {tracked untracked : Octets}
    (answers : Answers host directory ["diff", "--name-only", "--diff-filter=ACMR", base, "--"]
      tracked)
    (answers' : Answers host directory ["ls-files", "--others", "--exclude-standard"] untracked) :
    ∃ files, (changedFiles directory base).result host = .ok files ∧ files.Pairwise (· < ·) ∧
      ∀ name, name ∈ files ↔ OnLine tracked name ∨ OnLine untracked name := by
  obtain ⟨errors, first⟩ := result_call answers
  obtain ⟨errors', second⟩ := result_call answers'
  refine ⟨listing (.ofOutcome ⟨tracked, errors, some 0⟩)
    (.ofOutcome ⟨untracked, errors', some 0⟩), ?_, pairwise_withoutRepeats_mergeSort _, ?_⟩
  · unfold changedFiles
    simp only [Session.result_bind, first, second]
    rfl
  · intro name
    rw [listing, mem_withoutRepeats, List.mem_mergeSort, List.map_append, List.mem_append,
      mem_map_lines, mem_map_lines]

end Vcs.Git

/-! ### Selection -/

namespace Check

section

variable {r : Repository} {host : Host} {base : String}

theorem result_namedFiles (paths : List String) : (namedFiles r paths).result host =
    (paths.mapM (r.relative host.files host.directory)).map distinct := by
  rw [namedFiles, Session.result_look]
  cases paths.mapM (r.relative host.files host.directory) with
  | error e => rfl
  | ok files => rfl

/-- The paths are refused exactly if one of them stands for no file of the working copy. -/
theorem namedFiles_error_iff (paths : List String) :
    (∃ e, (namedFiles r paths).result host = .error e) ↔
      ∃ path ∈ paths, ∀ names, ¬ r.StandsFor host path names := by
  have failing : ∀ path, (∃ e, r.relative host.files host.directory path = .error e) ↔
      ∀ names, ¬ r.StandsFor host path names := by
    intro path
    simp only [exists_error_iff, Repository.relative_iff]
    constructor
    · intro no names stands
      exact no ⟨_, names, stands, rfl⟩
    · rintro no ⟨_, names, stands, -⟩
      exact no names stands
  simp only [← failing]
  rw [← mapM_eq_error_iff, result_namedFiles]
  cases paths.mapM (r.relative host.files host.directory) with
  | error e => simp [Except.map]
  | ok files => simp [Except.map]

/-- Otherwise each file is selected once, in the order of the paths. -/
theorem namedFiles_selection {paths : List String}
    (stand : ∀ path ∈ paths, ∃ names, r.StandsFor host path names) :
    ∃ mentioned files, List.Forall₂ (r.StandsFor host) paths mentioned ∧
      (namedFiles r paths).result host = .ok files ∧ Selection mentioned files := by
  choose! place stands using stand
  have pairs : List.Forall₂ (r.StandsFor host) paths (paths.map place) :=
    List.forall₂_map_right_iff.mpr (List.forall₂_same.mpr stands)
  have named : ∀ names ∈ paths.map place, names.Named := by
    intro names mem
    obtain ⟨path, given, rfl⟩ := List.mem_map.mp mem
    exact (stands path given).named
  refine ⟨paths.map place, _, pairs, ?_, selection_distinct named⟩
  have texts : paths.mapM (r.relative host.files host.directory) =
      .ok ((paths.map place).map fun names => "/".intercalate names) := by
    rw [mapM_eq_ok_iff, List.forall₂_map_right_iff]
    exact pairs.imp fun _ names stands => Repository.relative_iff.mpr ⟨names, stands, rfl⟩
  rw [result_namedFiles, texts]
  rfl

/-- Without paths, the files are those of git's two listings that the globs let through. -/
theorem changedFiles_selected {filter : FileFilter} {tracked untracked : Octets}
    (isGit : r.vcs = .git) (globs : r.settings.fileFilter = .ok filter)
    (answers : Vcs.Git.Answers host r.root ["diff", "--name-only", "--diff-filter=ACMR", base, "--"]
      tracked)
    (answers' : Vcs.Git.Answers host r.root ["ls-files", "--others", "--exclude-standard"]
      untracked) :
    ∃ files, (changedFiles r base).result host = .ok files ∧ files.Pairwise (· < ·) ∧
      ∀ name, name ∈ files ↔ (Vcs.Git.OnLine tracked name ∨ Vcs.Git.OnLine untracked name) ∧
        FileFilter.Matches r.settings.includeGlobs name ∧
        ¬ FileFilter.Matches r.settings.excludeGlobs name := by
  obtain ⟨files, listed, ordered, lines⟩ := Vcs.Git.changedFiles_eq_lines answers answers'
  rw [Settings.fileFilter, mapError_eq_ok] at globs
  refine ⟨files.filter filter.selects, ?_, ordered.filter _, ?_⟩
  · unfold changedFiles
    simp only [Session.result_bind, Session.result_ofExcept, Settings.fileFilter, globs, isGit,
      Vcs.changedFiles, listed]
    rfl
  · intro name
    rw [List.mem_filter, lines]
    apply and_congr_right
    intro onLine
    exact FileFilter.selects_iff globs (onLine.elim (·.plain) (·.plain))

end

/-- **The files that are checked.** Of paths that are given, all must stand for a file of the
working copy, and each of these files is checked once. Else, under git, those names on the lines
of the two listings that the globs choose. -/
theorem selectFiles_selection (r : Repository) (host : Host) (base : String) :
    (∀ paths : List String, paths ≠ [] →
      ((∃ e, (selectFiles r paths base).result host = .error e) ↔
        ∃ path ∈ paths, ∀ names, ¬ r.StandsFor host path names) ∧
      ((∀ path ∈ paths, ∃ names, r.StandsFor host path names) →
        ∃ mentioned files, List.Forall₂ (r.StandsFor host) paths mentioned ∧
          (selectFiles r paths base).result host = .ok files ∧ Selection mentioned files)) ∧
    (∀ (filter : FileFilter) (tracked untracked : Octets),
      r.vcs = .git → r.settings.fileFilter = .ok filter →
      Vcs.Git.Answers host r.root ["diff", "--name-only", "--diff-filter=ACMR", base, "--"]
        tracked →
      Vcs.Git.Answers host r.root ["ls-files", "--others", "--exclude-standard"] untracked →
      ∃ files, (selectFiles r [] base).result host = .ok files ∧ files.Pairwise (· < ·) ∧
        ∀ name, name ∈ files ↔
          (Vcs.Git.OnLine tracked name ∨ Vcs.Git.OnLine untracked name) ∧
            FileFilter.Matches r.settings.includeGlobs name ∧
            ¬ FileFilter.Matches r.settings.excludeGlobs name) := by
  constructor
  · intro paths given
    have selected : selectFiles r paths base = namedFiles r paths :=
      if_neg (mt List.isEmpty_iff.mp given)
    rw [selected]
    exact ⟨namedFiles_error_iff paths, namedFiles_selection⟩
  · intro filter tracked untracked isGit globs answers answers'
    exact changedFiles_selected isGit globs answers answers'

/-! A working copy with a link to a file, of which git lists some names. -/

namespace Linked

def repository : Repository where
  root := "/w"
  settings := { includeGlobs := ["*.js"], excludeGlobs := ["*.min.js"] }
  settingsPath := none
  vcs := .git

def host : Host where
  files := ⟨[(["w"], .dir), (["w", "a.js"], .file []), (["w", "l"], .link "a.js")]⟩
  directory := ["w"]
  tools call := some ⟨.ofText (if call.arguments.head? = some "diff" then "l\\b.js \n\na.js\n"
    else "b.min.js\na.js\n"), [], some 0⟩
  input := []
  clock := ⟨⟨2024, 5, 6⟩, 0, 0⟩

/-- A walk down the names of a path is what finds it. -/
theorem find_of_walks (path : String) {names : List String} {loc : Location}
    {entry : Files.Entry}
    (walks : host.files.Walks true Files.Tree.linkMax false (Files.Tree.startOf ["w"] path) names
      (.taken loc entry)) (spells : Files.Tree.Spells path names) :
    host.files.find ["w"] path = .ok (loc, entry) := by
  rw [Files.Tree.find, spells.resolve walks]
  rfl

theorem canonical_of_find {path : String} {loc : Location} {entry : Files.Entry}
    (found : host.files.find ["w"] path = .ok (loc, entry)) :
    host.files.canonical ["w"] path = .ok loc := by
  rw [Files.Tree.canonical, found]
  rfl

theorem find_root : host.files.find ["w"] "/w" = .ok (["w"], .dir) := by
  have walks : host.files.Walks true Files.Tree.linkMax false [] ["w"] (.taken ["w"] .dir) :=
    .down (by decide) (by decide) rfl .stop
  exact find_of_walks "/w" walks (by decide)

/-- The path goes out of the working copy and back into it. -/
theorem stands_file : repository.StandsFor host "../w/./a.js" ["a.js"] := by
  have walks : host.files.Walks true Files.Tree.linkMax false []
      ["w", "..", "w", ".", "a.js"] (.taken ["w", "a.js"] (.file [])) :=
    .down (by decide) (by decide) rfl <| .up <| .down (by decide) (by decide) rfl <| .dot <|
      .file (by decide) (by decide) rfl
  exact ⟨["w"], canonical_of_find find_root,
    canonical_of_find (find_of_walks "/w/../w/./a.js" walks (by decide))⟩

/-- The link stands for the file that it leads to. -/
theorem stands_link : repository.StandsFor host "l" ["a.js"] := by
  have walks : host.files.Walks true Files.Tree.linkMax false []
      ["w", "l"] (.taken ["w", "a.js"] (.file [])) :=
    .down (by decide) (by decide) rfl <| .link (by decide) (by decide) rfl (.inr (.inl rfl)) <|
      .file (by decide) (by decide) rfl
  exact ⟨["w"], canonical_of_find find_root,
    canonical_of_find (find_of_walks "/w/l" walks (by decide))⟩

def filter : FileFilter where
  included := [[.many, .literal '.', .literal 'j', .literal 's']]
  excluded := [[.many, .literal '.', .literal 'm', .literal 'i', .literal 'n', .literal '.',
    .literal 'j', .literal 's']]

end Linked

/-- The file is checked once, though two paths stand for it; of the names on the lines, those that
the globs choose. -/
theorem selectFiles_selection_linked :
    (∃ mentioned files,
      List.Forall₂ (Linked.repository.StandsFor Linked.host) ["l", "../w/./a.js"] mentioned ∧
      (selectFiles Linked.repository ["l", "../w/./a.js"] "HEAD").result Linked.host = .ok files ∧
      Selection mentioned files) ∧
    ∃ files, (selectFiles Linked.repository [] "HEAD").result Linked.host = .ok files ∧
      files.Pairwise (· < ·) := by
  obtain ⟨given, changed⟩ := selectFiles_selection Linked.repository Linked.host "HEAD"
  constructor
  · apply (given ["l", "../w/./a.js"] (List.cons_ne_nil _ _)).2
    intro path mem
    rcases List.mem_pair.mp mem with rfl | rfl
    · exact ⟨_, Linked.stands_link⟩
    · exact ⟨_, Linked.stands_file⟩
  · obtain ⟨files, selected, ordered, -⟩ := changed Linked.filter _ _ rfl rfl
      ⟨["w"], [], Linked.find_root, rfl⟩ ⟨["w"], [], Linked.find_root, rfl⟩
    exact ⟨files, selected, ordered⟩

end Check

end PatchLint
