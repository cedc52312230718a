import PatchLint.Proofs.Diff.OldLines
import PatchLint.Proofs.Lint.Introduced

/-!
Which old messages filtering looks at.

Old messages are looked up by the line that a new line was, and no line is mapped to line 0.
So an old message about the whole file hides nothing, whether it has no line or line 0, and
of the others only the set of their lines matters.

* `Messages.introduced_of_same_lines`: old messages on the same lines give the same result.
-/

namespace PatchLint.Lint

open PatchLint.Diff (LineMap)

namespace Messages

/-- There is a message on the line. -/
def On (ms : Messages) (line : Nat) : Prop := ∃ m ∈ ms, m.line = some line

theorem hasLine_iff {ms : Messages} {line : Nat} : ms.hasLine line = true ↔ ms.On line := by
  simp [hasLine, On]

theorem hasLine_of_same {old old' : Messages} {line : Nat} (same : old.On line ↔ old'.On line) :
    old.hasLine line = old'.hasLine line := by
  rw [Bool.eq_iff_iff, hasLine_iff, hasLine_iff]
  exact same

/-- **Only the lines of old messages matter**: old messages on the same lines, whatever else
they are, give the same result, be it the messages that stay or the failure. -/
theorem introduced_of_same_lines {diff : String}
    (adds : ∀ b ∈ LineMap.blocks diff, b.AddsAtZero) {old old' : Messages}
    (same : ∀ line, 0 < line → (old.On line ↔ old'.On line)) (new : Messages) :
    introduced diff old new = introduced diff old' new := by
  cases read : LineMap.ofText diff with
  | error fault =>
      rw [introduced, introduced, read]
      rfl
  | ok map =>
      rw [introduced_of_ofText read, introduced_of_ofText read]
      refine introducedBy_congr_mapped (fun line oldLine mapped => ?_) new
      have inFile := LineMap.oldLine_pos adds read mapped
      exact hasLine_of_same (same oldLine inFile)

theorem introduced_of_same_lines_two_hunks :
    let diff := "@@ -0,0 +1 @@\n+a\n@@ -2 +3 @@\n-b\n+c\n"
    let old : Messages := [.ofText (some 1) .error "e", .ofText (some 0) .error "e"]
    let old' : Messages := [.ofText none .warning "w", .ofText (some 1) .warning "w",
      (Message.ofText (some 1) .error "f").relabel "p"]
    let new : Messages := [.ofText (some 2) .error "e", .ofText (some 0) .error "e",
      .ofText (some 4) .error "e"]
    (∀ b ∈ LineMap.blocks diff, b.AddsAtZero) ∧
      (∀ line, 0 < line → (old.On line ↔ old'.On line)) ∧
      introduced diff old new = introduced diff old' new := by
  intro diff old old' new
  have adds : ∀ b ∈ LineMap.blocks diff, b.AddsAtZero := by decide
  have same : ∀ line, 0 < line → (old.On line ↔ old'.On line) := by
    intro line inFile
    simp [old, old', On, Message.ofText, Message.relabel, Nat.ne_of_lt inFile]
  exact ⟨adds, same, introduced_of_same_lines adds same new⟩

end Messages

end PatchLint.Lint
