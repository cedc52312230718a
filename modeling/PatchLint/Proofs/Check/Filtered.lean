import PatchLint.Proofs.Check.Runs
import PatchLint.Proofs.Lint.Merged
import PatchLint.Proofs.Lint.Report

/-!
The check of a file, compared with filtering what the linter says about it.

A check stops early in two places. Where the linter says nothing about the working copy, there
is nothing to filter, and so nothing is lost. Where the diff has no body line and the file is
in the base revision (`Unchanged`), the check takes the file as it is for granted; filtering
would keep what is said about the whole file there, and about lines that nothing was said
about before.

* `Messages.introduced_of_unchanged`: what filtering by a diff without a body line keeps.
* `Job.checkFile_filtered`: the check of a file comes to what filtering comes to, unless the
  file is unchanged, and then to nothing.
* `checkFile_not_filtered`: for an unchanged file the two do differ.
-/

namespace PatchLint

open PatchLint.Diff (LineMap)

namespace Lint

/-! ### Diffs without a body line -/

/-- No message of `old` is on the line of the message, or it has none. -/
def Message.isUnmatched (old : Messages) (m : Message) : Bool :=
  !m.anchor.any old.hasLine

/-- Without a body line, a line is where it was. -/
theorem Message.origin_of_isEmpty {map : LineMap} (empty : map.isEmpty = true)
    (there : map.deleted = false) {m : Message} (inRange : ∀ n ∈ m.line, n ≤ Diff.lineMax) :
    m.origin map = .ok m.anchor := by
  have none : map.records = [] := List.isEmpty_iff.mp empty
  unfold origin
  cases anchored : m.anchor with
  | none => rfl
  | some line =>
      obtain ⟨onLine, positive⟩ := Message.anchor_eq_some.mp anchored
      have bound := inRange line onLine
      have same : (line : Int) - Diff.shift line [] 0 = line := Int.sub_zero _
      have fits : 0 < (line : Int) ∧ (line : Int) ≤ Diff.lineMax := by omega
      show map.oldLine line = _
      rw [LineMap.oldLine, there, none, if_neg (by simp; omega)]
      show (Diff.extrapolate [] line).map some = _
      rw [Diff.extrapolate, same, if_pos fits]
      rfl

namespace Messages

/-- Against themselves, messages are unmatched if they are about the whole file. -/
theorem filter_isUnmatched_self (ms : Messages) :
    ms.filter (Message.isUnmatched ms) = ms.filter fun m => m.anchor.isNone := by
  refine List.filter_congr fun m mem => ?_
  unfold Message.isUnmatched
  cases anchored : m.anchor with
  | none => rfl
  | some line =>
      have here : hasLine ms line = true :=
        List.any_eq_true.mpr ⟨m, mem, beq_iff_eq.mpr (Message.anchor_eq_some.mp anchored).1⟩
      rw [Option.any_some, here]
      rfl

/-- If each message is where it was, those stay that are unmatched. -/
theorem introducedBy_of_origin {map : LineMap} {new : Messages}
    (same : ∀ m ∈ new, m.origin map = .ok m.anchor) (old : Messages) :
    introducedBy map old new =
      .ok ((new.filter (Message.isUnmatched old)).map (Message.labelled map)) := by
  induction new with
  | nil => rfl
  | cons m new ih =>
      have rest := ih fun m' mem => same m' (List.mem_cons_of_mem _ mem)
      rw [introducedBy_cons, same m List.mem_cons_self, rest]
      simp only [Except.bind, Except.map, List.filter_cons, Message.isUnmatched]
      by_cases hidden : m.anchor.any old.hasLine = true
      · simp [hidden]
      · simp [hidden]

/-- **What filtering by a diff without a body line keeps** is unmatched. -/
theorem introduced_of_unchanged {diff : String} {map : LineMap}
    (read : LineMap.ofText diff = .ok map) (empty : map.isEmpty = true)
    (there : map.deleted = false) {new : Messages}
    (inRange : ∀ m ∈ new, ∀ n ∈ m.line, n ≤ Diff.lineMax) (old : Messages) :
    introduced diff old new =
      .ok ((new.filter (Message.isUnmatched old)).map (Message.labelled map)) := by
  rw [introduced_of_ofText read]
  exact introducedBy_of_origin
    (fun m mem => Message.origin_of_isEmpty empty there (inRange m mem)) old

end Messages

end Lint

/-- What a linter says is on lines of 32 bits. -/
theorem Linter.line_le_of_lint {linter : Linter} {directory path content : String} {host : Host}
    {ms : Lint.Messages} (said : (linter.lint directory path content).result host = .ok ms) :
    ∀ m ∈ ms, ∀ n ∈ m.line, n ≤ Diff.lineMax := by
  obtain ⟨output, read, ofOutput, rfl⟩ := exists_output_of_lint said
  intro m mem
  obtain ⟨m', mem', rfl⟩ := List.mem_map.mp mem
  exact ((Lint.Messages.all_isRead_of_ofOutput ofOutput).1 m' mem').line

namespace Check

open PatchLint.Lint (Message Messages)

/-! ### The check of a file -/

/-- The diff has no body line, and the file is in the base revision. -/
def Unchanged (diff : String) (old : Option String) : Prop :=
  old.isSome = true ∧ ∃ map, LineMap.ofText diff = .ok map ∧ map.isEmpty = true

namespace Job

/-- What the host answers when the job checks a file: the diff, the content in both revisions,
and what the linter says about each. A cache may be there that says the right lines. -/
structure Given (job : Job) (host : Host) (path diff : String) (old : Option String)
    (content : String) (said new : Messages) : Prop where
  hasDiff : (job.repository.vcs.fileDiff job.repository.root job.base path
    job.repository.settings.contextLines).result host = .ok diff
  hasOld : (job.repository.vcs.baseContent job.repository.root job.base path).result host = .ok old
  hasContent : (job.newContent path).result host = .ok content
  saysNew : (job.lint path content).result host = .ok new
  saysOld : ∀ base, old = some base → (job.lint path base).result host = .ok said
  /-- Nothing was said about a file that was not there. -/
  absent : old = none → said = []
  cached : ∀ cache key ms, job.cache = some cache →
    (job.key? path).result host = .ok (some key) →
    cache.get? key job.linter.command = some ms → ∀ line, ms.hasLine line = said.hasLine line

variable {job : Job} {host : Host} {path diff content : String} {old : Option String}
  {said new : Messages}

/-- To look for the key never fails: where there is none, nothing is cached. -/
theorem exists_key? (job : Job) (host : Host) (path : String) :
    ∃ key, (job.key? path).result host = .ok key := by
  obtain ⟨r, linter, base, cache⟩ := job
  exact ⟨_, result_key? cache⟩

/-- The messages about the base revision are on the lines that the linter says. -/
theorem Given.result_oldMessages (given : job.Given host path diff old content said new) :
    ∃ ms fresh, (job.oldMessages path old).result host = .ok (ms, fresh) ∧
      ∀ line, ms.hasLine line = said.hasLine line := by
  cases old with
  | none =>
      rw [given.absent rfl]
      exact ⟨[], none, rfl, fun _ => rfl⟩
  | some base =>
      have linted := given.saysOld base rfl
      unfold oldMessages baseMessages
      cases cached : job.cache with
      | none =>
          simp only [Session.result_bind, linted, Except.bind, Session.result_pure]
          exact ⟨said, none, rfl, fun _ => rfl⟩
      | some cache =>
          obtain ⟨key, hasKey⟩ := job.exists_key? host path
          simp only [Session.result_bind, hasKey, Except.bind]
          cases key with
          | none =>
              simp only [Session.result_bind, linted, Except.bind, Session.result_pure]
              exact ⟨said, none, rfl, fun _ => rfl⟩
          | some key =>
              cases found : cache.get? key job.linter.command with
              | some ms =>
                  simp only [found, Session.result_pure]
                  exact ⟨ms, none, rfl, given.cached cache key ms cached hasKey found⟩
              | none =>
                  simp only [found, Session.result_bind, linted, Except.bind, Session.result_pure]
                  exact ⟨said, _, rfl, fun _ => rfl⟩

/-- The check of an unchanged file comes to nothing. -/
theorem Given.checkFile_of_unchanged (given : job.Given host path diff old content said new)
    (unchanged : Unchanged diff old) : (job.checkFile path).result host = .ok {} := by
  obtain ⟨inBase, map, read, empty⟩ := unchanged
  have stops : (map.isEmpty && old.isSome) = true := by rw [empty, inBase, Bool.and_self]
  unfold checkFile
  simp only [Session.result_bind, given.hasDiff, read, given.hasOld, Except.bind,
    Session.result_ofExcept, Except.mapError]
  rw [if_pos stops]
  rfl

/-- The check of any other file comes to what filtering comes to. -/
theorem Given.checkFile_of_changed (given : job.Given host path diff old content said new)
    (changed : ¬ Unchanged diff old) :
    ((job.checkFile path).result host).map FileResult.messages =
      (Messages.introduced diff said new).mapError .diff := by
  unfold checkFile Messages.introduced
  cases read : LineMap.ofText diff with
  | error fault =>
      simp only [Session.result_bind, given.hasDiff, read, Except.bind,
        Session.result_ofExcept, Except.mapError]
      rfl
  | ok map =>
      have goesOn : ¬ (map.isEmpty && old.isSome) = true := by
        intro stops
        obtain ⟨empty, inBase⟩ := Bool.and_eq_true_iff.mp stops
        exact changed ⟨inBase, map, read, empty⟩
      obtain ⟨ms, fresh, before, sameLines⟩ := given.result_oldMessages
      simp only [Session.result_bind, given.hasDiff, read, given.hasOld, Except.bind,
        Session.result_ofExcept, Except.mapError]
      rw [if_neg goesOn]
      simp only [Session.result_bind, given.hasContent, given.saysNew, Except.bind]
      -- Without messages the base revision is not asked, and nothing stays either way.
      cases new with
      | nil => rfl
      | cons m new =>
          rw [if_neg (by simp)]
          simp only [Session.result_bind, before, Except.bind, Session.result_ofExcept]
          rw [Messages.introducedBy_congr_hasLine sameLines]
          show _ = Except.mapError _ (Messages.introducedBy map said (m :: new))
          cases Messages.introducedBy map said (m :: new) with
          | error fault => rfl
          | ok kept => rfl

/-- **The check of a file comes to what filtering comes to**, messages, paths and errors alike,
unless the file is unchanged. Then it comes to nothing, where filtering would keep what is
unmatched. -/
theorem checkFile_filtered (given : job.Given host path diff old content said new) :
    (¬ Unchanged diff old →
      ((job.checkFile path).result host).map FileResult.messages =
        (Messages.introduced diff said new).mapError .diff) ∧
    (Unchanged diff old →
      ((job.checkFile path).result host).map FileResult.messages = .ok [] ∧
      ∀ map, LineMap.ofText diff = .ok map → map.deleted = false →
        Messages.introduced diff said new =
          .ok ((new.filter (Message.isUnmatched said)).map (Message.labelled map))) := by
  refine ⟨given.checkFile_of_changed, fun unchanged => ⟨?_, fun map read there => ?_⟩⟩
  · rw [given.checkFile_of_unchanged unchanged]
    rfl
  · obtain ⟨-, map', read', empty⟩ := unchanged
    cases read.symm.trans read'
    exact Messages.introduced_of_unchanged read empty there
      (Linter.line_le_of_lint given.saysNew) said

/-- If both revisions have the same content, what the check of an unchanged file leaves out is
just what is said about the whole file. -/
theorem Given.introduced_of_same_content
    (given : job.Given host path diff (some content) content said new) {map : LineMap}
    (read : LineMap.ofText diff = .ok map) (empty : map.isEmpty = true)
    (there : map.deleted = false) :
    Messages.introduced diff said new =
      .ok ((new.filter fun m => m.anchor.isNone).map (Message.labelled map)) := by
  have same : said = new :=
    Except.ok.inj ((given.saysOld content rfl).symm.trans given.saysNew)
  rw [same, Messages.introduced_of_unchanged read empty there
    (Linter.line_le_of_lint given.saysNew), Messages.filter_isUnmatched_self]

end Job

/-! ### A file that is unchanged, with a message about the whole of it -/

namespace Untouched

/-- The diff is empty, and the linter complains about the file as a whole. -/
def tooling : Tooling := ⟨"", "a\n", "[\x7b\"type\":\"WARNING\"\x7d]"⟩

def host : Host :=
  ⟨⟨[(["a.js"], .file (.ofText "a\n"))]⟩, [], answering tooling.answer, [],
    ⟨⟨2024, 5, 6⟩, 0, 0⟩⟩

def job : Job := ⟨OneFile.repository, OneFile.linter, "BASE", none⟩

def complaint : Message := ⟨none, some "a.js", .warning, []⟩

theorem site : tooling.Site host OneFile.repository := ⟨rfl, rfl, rfl⟩

/-- Whatever the content, the linter has this one complaint. -/
theorem linted (content : String) :
    tooling.verdict OneFile.linter.command "a.js" content = .ok [complaint] := by
  have answers : tooling.answer (OneFile.linter.argumentsFor "a.js") = tooling.said := by decide
  have read : Messages.ofOutput tooling.said = .ok [⟨none, none, .warning, []⟩] := rfl
  exact Tooling.verdict_eq OneFile.ofCommand answers read content

theorem lint_eq (content : String) : (job.lint "a.js" content).result host = .ok [complaint] :=
  Tooling.lint_eq "BASE" site OneFile.ofCommand linted none content

/-- All answers for the unchanged file. -/
theorem given : job.Given host "a.js" "" (some "a\n") "a\n" [complaint] [complaint] where
  hasDiff := Tooling.fileDiff_eq site _ _ _
  hasOld := Tooling.contentAt_eq site _ _
  hasContent := Tooling.newContent_eq rfl rfl rfl
  saysNew := lint_eq "a\n"
  saysOld := fun base _ => lint_eq base
  absent := by rintro ⟨⟩
  cached := by rintro cache key ms ⟨⟩

/-- The diff is empty, and the file is in the base revision. -/
theorem unchanged : Unchanged "" (some "a\n") := ⟨rfl, {}, rfl, rfl⟩

/-- The filter itself would let the complaint stay, since it is about no line. -/
theorem introduced_eq : Messages.introduced "" [complaint] [complaint] = .ok [complaint] := rfl

end Untouched

/-- For unchanged files the two do differ: filtering keeps the message about the whole file, and
the check does not. -/
theorem checkFile_not_filtered :
    ¬ ∀ (job : Job) (host : Host) (path diff content : String) (old : Option String)
        (said new : Messages), job.Given host path diff old content said new →
      (((job.checkFile path).result host).map FileResult.messages).map (Messages.relabel path) =
        ((Messages.introduced diff said new).mapError Error.diff).map (Messages.relabel path) := by
  intro agree
  have same := agree _ _ _ _ _ _ _ _ Untouched.given
  rw [Untouched.given.checkFile_of_unchanged Untouched.unchanged, Untouched.introduced_eq] at same
  cases same

namespace OneFile

/-- All answers for the changed file. -/
theorem given : job.Given first.host "a.js" "@@ -1 +1 @@\n-a\n+b\n" (some "a\n") "b\n"
    [complaint] [complaint] where
  hasDiff := Tooling.fileDiff_eq (site rfl) _ _ _
  hasOld := Tooling.contentAt_eq (site rfl) _ _
  hasContent := Tooling.newContent_eq rfl rfl rfl
  saysNew := lint_eq rfl "b\n"
  saysOld := fun base _ => lint_eq rfl base
  absent := by rintro ⟨⟩
  cached := by
    rintro cache key ms ⟨⟩ - found
    cases found

theorem changed : ¬ Unchanged "@@ -1 +1 @@\n-a\n+b\n" (some "a\n") := by
  rintro ⟨-, map, read, empty⟩
  have records : LineMap.ofText "@@ -1 +1 @@\n-a\n+b\n" =
      .ok { records := [.removed 1, .added 1] } := rfl
  cases records.symm.trans read
  cases empty

end OneFile

/-- The check of a changed file comes to what filtering comes to, and that of an unchanged one
to nothing. -/
theorem checkFile_filtered_two_files :
    ((OneFile.job.checkFile "a.js").result OneFile.first.host).map FileResult.messages =
      (Messages.introduced "@@ -1 +1 @@\n-a\n+b\n" [OneFile.complaint]
        [OneFile.complaint]).mapError Error.diff ∧
    ((Untouched.job.checkFile "a.js").result Untouched.host).map FileResult.messages = .ok [] ∧
    Messages.introduced "" [Untouched.complaint] [Untouched.complaint] =
      .ok [Untouched.complaint] := by
  obtain ⟨alike, -⟩ := Job.checkFile_filtered OneFile.given
  obtain ⟨-, stopped⟩ := Job.checkFile_filtered Untouched.given
  obtain ⟨nothing, kept⟩ := stopped Untouched.unchanged
  exact ⟨alike OneFile.changed, nothing, kept {} rfl rfl⟩

end Check

end PatchLint
