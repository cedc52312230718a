import PatchLint.Proofs.Diff.Target
import PatchLint.Proofs.Lint.Dropped

/-!
The files that filtered messages are about.

Whatever file a linter says its messages are about, the header of the diff has the last word.

* `path_of_kept`: a message that stays is about the file that the header names.
* `headers_name_file`: this is the file that was diffed. The one exception is a file that
  Subversion lists with a path that begins with `b/`.
* `not_headers_name_file`: such a file is taken for the one without the `b/`.
-/

namespace PatchLint.Lint.Messages

open PatchLint.Diff (LineMap NamesFile HeaderPath Note targetPath? gitPrefix gitHeader svnHeader)

/-- Diffs whose header has the value let only messages stay that are about the file at the path. -/
def Labels (value path : List Char) : Prop :=
  ∀ (diff : String) (old new kept : Messages), NamesFile diff value →
    introduced diff old new = .ok kept → ∀ k ∈ kept, k.path = some (String.ofList path)

/-- **A message that stays is about the file that the header names.** -/
theorem path_of_kept {value path : List Char} (named : targetPath? value = some path) :
    Labels value path := by
  intro diff old new kept names run k mem
  have meaning := introduces_introduced diff old new
  rw [run] at meaning
  cases meaning with
  | kept read _ stay =>
      obtain ⟨m, -, passed⟩ := stay.exists_passed k mem
      rw [passed.path, LineMap.target_of_names names read, named]
      rfl

/-- **The header names the file that was diffed**, whichever system wrote it, unless it is
Subversion and the path begins with `b/`. Then this is missing. -/
theorem headers_name_file {p : List Char} (path : HeaderPath p) :
    (targetPath? (gitHeader p) = some p ∧ Labels (gitHeader p) p) ∧
      ∀ note : Note,
        (¬ gitPrefix <+: p →
          targetPath? (svnHeader p note) = some p ∧ Labels (svnHeader p note) p) ∧
        ∀ q, p = gitPrefix ++ q →
          targetPath? (svnHeader p note) = some q ∧ Labels (svnHeader p note) q := by
  have git := Diff.targetPath?_gitHeader path
  refine ⟨⟨git, path_of_kept git⟩, fun note => ⟨?_, ?_⟩⟩
  · intro other
    have svn := Diff.targetPath?_svnHeader path note
    have whole : Diff.after? gitPrefix p = none := by
      rw [Diff.after?, if_neg (by rwa [List.isPrefixOf_iff_prefix])]
    rw [whole, Option.getD_none] at svn
    exact ⟨svn, path_of_kept svn⟩
  · rintro q rfl
    have svn := Diff.targetPath?_svnHeader path note
    rw [Diff.after?_append, Option.getD_some] at svn
    exact ⟨svn, path_of_kept svn⟩

theorem headers_name_file_with_space :
    HeaderPath "src/my app.js".toList ∧
      targetPath? "b/src/my app.js\t".toList = some "src/my app.js".toList ∧
      targetPath? "src/my app.js\t(revision 4)".toList = some "src/my app.js".toList := by
  have path : HeaderPath "src/my app.js".toList := by
    constructor
    all_goals decide
  obtain ⟨⟨git, -⟩, svn⟩ := headers_name_file path
  obtain ⟨other, -⟩ := svn (.revision 4)
  exact ⟨path, git, (other (by decide)).1⟩

/-- **Not every header names the file that was diffed.** -/
theorem not_headers_name_file :
    ¬ ∀ p : List Char, HeaderPath p → targetPath? (gitHeader p) = some p ∧
      ∀ note : Note, targetPath? (svnHeader p note) = some p := by
  intro named
  have path : HeaderPath "b/x.js".toList := by
    constructor
    all_goals decide
  obtain ⟨-, svn⟩ := named _ path
  have other : targetPath? (svnHeader "b/x.js".toList .workingCopy) = some "x.js".toList := by
    decide
  exact absurd (other.symm.trans (svn .workingCopy)) (by decide)

end PatchLint.Lint.Messages
