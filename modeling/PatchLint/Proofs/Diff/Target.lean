import PatchLint.Proofs.Diff.Body
import PatchLint.Proofs.Results
import PatchLint.Proofs.Text.Names

/-!
The file that a diff is of, by its `+++` line.

Both systems write such a line, each in its own way: git puts `b/` in front of the path, and
Subversion a tab and a note behind it. One reader serves both, and does not know which it reads.

* `targetPath?_gitHeader`: what git writes is read as the path.
* `targetPath?_svnHeader`: and so is what Subversion writes, less a `b/` in front.
* `LineMap.target_of_names`: the path of a diff is that of the last such line in front of its
  hunks. What looks like one behind them changes nothing.

So a file of a Subversion working copy whose path begins with `b/` is taken for another one.
-/

namespace PatchLint.Diff

/-! ### What the systems write -/

/-- The path of a file, from the top of its working copy, that stands in a header as it is. -/
structure HeaderPath (p : List Char) : Prop where
  nonempty : p ≠ []
  relative : p.head? ≠ some '/'
  printable : ∀ c ∈ p, Text.Printable c
  noBackslash : '\\' ∉ p
  noQuote : '"' ∉ p
  noSpaceFirst : p.head? ≠ some ' '
  noSpaceLast : p.getLast? ≠ some ' '

def gitPrefix : List Char := ['b', '/']

/-- What git writes of a path: a tab shows the end of one that has a space in it. -/
def gitHeader (p : List Char) : List Char :=
  gitPrefix ++ p ++ if ' ' ∈ p then ['\t'] else []

/-- Which state of a file Subversion says it is. -/
inductive Note where
  | workingCopy
  | revision (n : Nat)
  deriving DecidableEq, Repr, Inhabited

def Note.text : Note → List Char
  | .workingCopy => "(working copy)".toList
  | .revision n => "(revision ".toList ++ Nat.toDigits 10 n ++ [')']

/-- What Subversion writes of a path. -/
def svnHeader (p : List Char) (note : Note) : List Char := p ++ '\t' :: note.text

/-- The diff names its file by the value: this stands in a `+++` line in front of all hunks, and
no other such line between that and the hunks. -/
def NamesFile (diff : String) (value : List Char) : Prop :=
  ∃ before header after hunks,
    Text.splitLines diff.toList = before ++ header :: after ++ hunks ∧
    target? header = some value ∧
    (∀ line ∈ before ++ header :: after, isHunkHeader line = false) ∧
    (∀ line ∈ after, target? line = none) ∧ ∀ line ∈ hunks.head?, isHunkHeader line = true

/-! ### Reading a value -/

section

variable {p : List Char}

/-- Nothing of such a path is taken off at its ends. -/
theorem HeaderPath.last_shown (path : HeaderPath p) : ∀ c ∈ p.getLast?, Text.isBlank c = false := by
  intro c last
  have printable := path.printable c (List.mem_of_getLast? last)
  rw [Bool.eq_false_iff, ne_eq, printable.isBlank_iff]
  rintro rfl
  exact path.noSpaceLast last

/-- The first character of a path is no blank. -/
theorem HeaderPath.first_shown (path : HeaderPath p) : ∀ c ∈ p.head?, Text.isBlank c = false := by
  intro c first
  have printable := path.printable c (List.mem_of_mem_head? first)
  rw [Bool.eq_false_iff, ne_eq, printable.isBlank_iff]
  rintro rfl
  exact path.noSpaceFirst first

theorem HeaderPath.noTab (path : HeaderPath p) : '\t' ∉ p := by
  intro mem
  exact absurd (path.printable '\t' mem) (by decide)

/-- A name is read up to a tab, if there is one behind it. -/
theorem headerName_append {name rest : List Char} (noTab : '\t' ∉ name)
    (ends : ∀ c ∈ rest.head?, c = '\t') : headerName (name ++ rest) = Text.trim name := by
  have all : ∀ c ∈ name, decide (c ≠ '\t') = true := by
    intro c mem
    exact decide_eq_true (ne_of_mem_of_not_mem mem noTab)
  have stop : rest.takeWhile (· ≠ '\t') = [] := by
    cases rest with
    | nil => rfl
    | cons c rest => rw [List.takeWhile_cons, if_neg (by simp [ends c rfl])]
  rw [headerName, List.takeWhile_append_of_pos all, stop, List.append_nil]

/-- A trimmed name is read as the file that it stands for, less the `b/` in front. -/
theorem targetPath?_append {name rest : List Char} (noTab : '\t' ∉ name)
    (trimmed : Text.trim name = name) (ends : ∀ c ∈ rest.head?, c = '\t')
    (nonempty : name ≠ []) (someFile : name ≠ noFile) :
    targetPath? (name ++ rest) = some (Text.slashed ((after? gitPrefix name).getD name)) := by
  have read := (headerName_append noTab ends).trans trimmed
  have again : headerName name = name := by
    have alone : headerName (name ++ []) = Text.trim name := headerName_append noTab (by simp)
    rwa [List.append_nil, trimmed] at alone
  have present : namesNoFile name = false := by simp [namesNoFile, again, someFile]
  simp only [targetPath?, read, present, gitPrefix]
  rw [if_neg (by simp [nonempty])]

/-- **What git writes is read as the path.** -/
theorem targetPath?_gitHeader (path : HeaderPath p) : targetPath? (gitHeader p) = some p := by
  have noTab : '\t' ∉ gitPrefix ++ p := by
    rw [List.mem_append, not_or]
    exact ⟨by decide, path.noTab⟩
  have first : (gitPrefix ++ p).head? = some 'b' := rfl
  have last : (gitPrefix ++ p).getLast? = p.getLast? := by
    rw [List.getLast?_append, Option.or_of_isSome (by simp [path.nonempty])]
  have trimmed : Text.trim (gitPrefix ++ p) = gitPrefix ++ p := by
    refine Text.trim_eq_self (fun c mem => ?_) ?_
    · cases mem
      rfl
    · rw [last]
      exact path.last_shown
  have ends : ∀ c ∈ (if ' ' ∈ p then ['\t'] else []).head?, c = '\t' := by
    split
    · simp
    · simp
  have someFile : gitPrefix ++ p ≠ noFile := by
    intro same
    rw [same] at first
    exact absurd first (by decide)
  rw [gitHeader, targetPath?_append noTab trimmed ends (by simp [gitPrefix]) someFile,
    after?_append, Option.getD_some, Text.slashed_eq_self_iff.mpr path.noBackslash]

/-- **What Subversion writes is read as the path, less a `b/` in front.** -/
theorem targetPath?_svnHeader (path : HeaderPath p) (note : Note) :
    targetPath? (svnHeader p note) = some ((after? gitPrefix p).getD p) := by
  have trimmed := Text.trim_eq_self path.first_shown path.last_shown
  have someFile : p ≠ noFile := by
    rintro rfl
    exact path.relative rfl
  have noBackslash : '\\' ∉ (after? gitPrefix p).getD p := by
    cases rest : after? gitPrefix p with
    | none => exact path.noBackslash
    | some q =>
        intro mem
        refine path.noBackslash ?_
        rw [after?_eq_some.mp rest]
        exact List.mem_append_right gitPrefix mem
  rw [svnHeader, targetPath?_append path.noTab trimmed (by simp) path.nonempty someFile,
    Text.slashed_eq_self_iff.mpr noBackslash]

end

/-! ### The path of a diff -/

namespace Scan

/-- Behind the first hunk header no line changes the path. -/
theorem step_inHunks {s last : Scan} {line : List Char} (inHunks : s.inHunks = true)
    (read : s.step line = .ok last) :
    last.inHunks = true ∧ last.map.target = s.map.target := by
  have body : ∀ {last : Scan}, s.body line = .ok last →
      last.inHunks = true ∧ last.map.target = s.map.target := by
    intro last read
    obtain ⟨cursor, -, same⟩ := bind_eq_ok.mp read
    cases same
    exact ⟨inHunks, rfl⟩
  unfold step at read
  -- Of all that a line can be, only a file header touches the target, and in hunks that is a
  -- failure.
  split at read
  · cases read
    exact ⟨inHunks, rfl⟩
  split at read
  · unfold hunk at read
    split at read
    · cases read
    · cases read
      exact ⟨rfl, rfl⟩
  split at read
  · exact body read
  split at read
  · rw [fileHeader, if_pos inHunks] at read
    cases read
  split at read
  · cases read
    exact ⟨inHunks, rfl⟩
  · exact body read

/-- The lines from the first hunk header on do not change the path. -/
theorem foldlM_step_hunks {s last : Scan} {lines : List (List Char)}
    (opens : ∀ line ∈ lines.head?, isHunkHeader line = true)
    (run : lines.foldlM step s = .ok last) : last.map.target = s.map.target := by
  cases lines with
  | nil =>
      cases run
      rfl
  | cons header lines =>
      obtain ⟨h, read⟩ := exists_hunk_of_run (opens header rfl) run
      rw [List.foldlM_cons, bind_eq_ok] at run
      obtain ⟨next, first, rest⟩ := run
      have begins := opens header rfl
      have opened : next = { s with cursor := .ofHunk h, inHunks := true } := by
        simp [step, isRemark_of_isHunkHeader begins, begins, hunk, read] at first
        exact first.symm
      have kept := foldlM_ok_preserves
        (fun last : Scan => last.inHunks = true ∧ last.map.target = s.map.target)
        (fun s' line next _ read kept => by
          obtain ⟨inHunks, same⟩ := step_inHunks kept.1 read
          exact ⟨inHunks, same.trans kept.2⟩)
        rest (by rw [opened]; exact ⟨rfl, rfl⟩)
      exact kept.2

end Scan

namespace LineMap

/-- Lines that name no file leave the map as it is. -/
theorem foldl_headed_none {lines : List (List Char)} (silent : ∀ line ∈ lines, target? line = none)
    (m : LineMap) : lines.foldl headed m = m := by
  induction lines with
  | nil => rfl
  | cons line lines ih =>
      have same : m.headed line = m := by rw [headed, silent line List.mem_cons_self]
      rw [List.foldl_cons, same, ih fun l mem => silent l (List.mem_cons_of_mem _ mem)]

/-- **The path of a diff is the one that its header names.** -/
theorem target_of_names {diff : String} {value : List Char} {m : LineMap}
    (names : NamesFile diff value) (read : ofText diff = .ok m) :
    m.target = (targetPath? value).map String.ofList := by
  obtain ⟨before, header, after, hunks, cut, named, plain, silent, opens⟩ := names
  rw [ofText, cut, ofLines, bind_eq_ok] at read
  obtain ⟨last, run, same⟩ := read
  cases same
  rw [List.foldlM_append, Scan.foldlM_step_preamble rfl rfl plain] at run
  rw [Scan.foldlM_step_hunks opens run, List.foldl_append, List.foldl_cons,
    foldl_headed_none silent, headed, named]

end LineMap

end PatchLint.Diff
