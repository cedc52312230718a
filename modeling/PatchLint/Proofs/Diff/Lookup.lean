import PatchLint.Diff.LineMap
import PatchLint.Proofs.Diff.Script

/-!
Looking up lines through the records of an edit script.

`Recorded` is what a diff tells of a script: every change has its record, and a kept line
has one or not. Both ways to look a line up are sound for such records.

* `recorded?_sound`: a record of a new line tells its origin.
* `shift_inside`: a line without record is led to its origin by the running shift.
* `shift_recorded`: and so is a kept line that has a record.
* `shift_past`: behind the last line the shift is the difference of the lengths.
-/

namespace PatchLint.Diff

/-! ### Steps of a lookup -/

/-- A record with the line's number tells its old line. -/
theorem recorded?_cons_of_eq {r : Record} {rs : List Record} {n : Nat} (same : r.new? = some n) :
    recorded? (r :: rs) n = some r.old? := by
  simp [recorded?, same]

/-- Another record says nothing about it. -/
theorem recorded?_cons_of_ne {r : Record} {rs : List Record} {n : Nat}
    (other : r.new? ≠ some n) : recorded? (r :: rs) n = recorded? rs n := by
  simp [recorded?, other]

theorem getElem?_cons_later {α : Type} {j n : Nat} (later : j < n) (a : α) (l : List α) :
    (a :: l)[n - j]? = l[n - (j + 1)]? := by
  rw [show n - j = n - (j + 1) + 1 by omega, List.getElem?_cons_succ]

/-- A kept line moves both numbers on, and so not the shift. -/
theorem sub_succ_succ (i j : Nat) : ((j + 1 : Nat) : Int) - (i + 1 : Nat) = (j : Int) - i := by
  omega

section

variable {i j n : Nat} {rs : List Record}

/-- A kept line in front leaves the shift as it is. -/
theorem shift_kept (place : j ≤ n) :
    shift n (.kept i j :: rs) ((j : Int) - i) =
      shift n rs (((j + 1 : Nat) : Int) - (i + 1 : Nat)) := by
  rw [shift, if_neg (by omega), sub_succ_succ]

/-- The place of a removed line follows from the running shift alone. -/
theorem shift_removed (place : j ≤ n) :
    shift n (.removed i :: rs) ((j : Int) - i) = shift n rs ((j : Int) - (i + 1 : Nat)) := by
  rw [shift, if_neg (by omega)]
  congr 1
  omega

/-- An added line in front moves what is behind it by one. -/
theorem shift_added (place : j ≤ n) :
    shift n (.added j :: rs) ((j : Int) - i) = shift n rs (((j + 1 : Nat) : Int) - i) := by
  rw [shift, if_neg (by omega)]
  congr 1
  omega

end

/-! ### Records of a script -/

/-- The records describe the script, where `i` and `j` are the numbers of the next line in
the old file and in the new one: every change has its record, a kept line may have one. -/
inductive Recorded : (i j : Nat) → Script → List Record → Prop where
  | done {i j : Nat} : Recorded i j [] []
  | passed {i j : Nat} {line : List Char} {s : Script} {rs : List Record} :
      Recorded (i + 1) (j + 1) s rs → Recorded i j (.keep line :: s) rs
  | kept {i j : Nat} {line : List Char} {s : Script} {rs : List Record} :
      Recorded (i + 1) (j + 1) s rs → Recorded i j (.keep line :: s) (.kept i j :: rs)
  | removed {i j : Nat} {line : List Char} {s : Script} {rs : List Record} :
      Recorded (i + 1) j s rs → Recorded i j (.remove line :: s) (.removed i :: rs)
  | added {i j : Nat} {line : List Char} {s : Script} {rs : List Record} :
      Recorded i (j + 1) s rs → Recorded i j (.add line :: s) (.added j :: rs)

namespace Recorded

/-- Lines that no hunk shows have no record. -/
theorem gap {i j : Nat} {s : Script} {rs : List Record} (lines : List (List Char))
    (rest : Recorded (i + lines.length) (j + lines.length) s rs) :
    Recorded i j (lines.map .keep ++ s) rs := by
  induction lines generalizing i j with
  | nil => exact rest
  | cons line lines ih =>
      refine .passed (ih ?_)
      simpa [Nat.add_assoc, Nat.add_comm 1] using rest

variable {i j n : Nat} {s : Script} {rs : List Record}

/-- Lines before the next one have no record. -/
theorem recorded?_before (records : Recorded i j s rs) (before : n < j) :
    recorded? rs n = none := by
  induction records with
  | done => rfl
  | passed _ ih => exact ih (by omega)
  | kept _ ih =>
      rw [recorded?_cons_of_ne (by simp [Record.new?]; omega)]
      exact ih (by omega)
  | removed _ ih =>
      rw [recorded?_cons_of_ne (by simp [Record.new?])]
      exact ih before
  | added _ ih =>
      rw [recorded?_cons_of_ne (by simp [Record.new?]; omega)]
      exact ih (by omega)

/-- **A record of a new line tells its origin.** -/
theorem recorded?_sound {r : Option Nat} (records : Recorded i j s rs)
    (found : recorded? rs n = some r) (place : j ≤ n) : (s.origins i)[n - j]? = some r := by
  -- By steps of the script; `n` is the line of this step, or comes later.
  induction records with
  | done => simp [recorded?] at found
  | @passed i j line s rs rest ih =>
      have later : j < n := by
        refine Nat.lt_of_le_of_ne place fun same => ?_
        rw [rest.recorded?_before (by omega)] at found
        cases found
      rw [Script.origins, getElem?_cons_later later]
      exact ih found later
  | @kept i j line s rs rest ih =>
      rcases Nat.eq_or_lt_of_le place with same | later
      · subst same
        rw [recorded?_cons_of_eq rfl] at found
        simpa [Script.origins, Record.old?] using found
      · rw [recorded?_cons_of_ne (by simp [Record.new?]; omega)] at found
        rw [Script.origins, getElem?_cons_later later]
        exact ih found later
  | removed _ ih =>
      rw [recorded?_cons_of_ne (by simp [Record.new?])] at found
      exact ih found place
  | @added i j line s rs rest ih =>
      rcases Nat.eq_or_lt_of_le place with same | later
      · subst same
        rw [recorded?_cons_of_eq rfl] at found
        simpa [Script.origins, Record.old?] using found
      · rw [recorded?_cons_of_ne (by simp [Record.new?]; omega)] at found
        rw [Script.origins, getElem?_cons_later later]
        exact ih found later

/-! ### The running shift -/

/-- The shift at the next line holds for the lines before it. -/
theorem shift_before (records : Recorded i j s rs) (before : n < j) :
    shift n rs ((j : Int) - i) = (j : Int) - i := by
  induction records with
  | done => rfl
  | @passed i j line s rs rest ih =>
      rw [← sub_succ_succ]
      exact ih (by omega)
  | kept => rw [shift, if_pos (by omega)]
  | removed => rw [shift, if_pos (by omega)]
  | added => rw [shift, if_pos (by omega)]

/-- **Without a record, the running shift leads to the origin.** -/
theorem shift_inside (records : Recorded i j s rs) (unrecorded : recorded? rs n = none)
    (place : j ≤ n) (inside : n < j + s.newLines.length) :
    ∃ o : Nat, (s.origins i)[n - j]? = some (some o) ∧
      (n : Int) - shift n rs ((j : Int) - i) = o := by
  -- No record has the line, so it is a kept line that was passed over, and not an added one.
  induction records with
  | done => simp at inside; omega
  | @passed i j line s rs rest ih =>
      rcases Nat.eq_or_lt_of_le place with same | later
      · subst same
        refine ⟨i, by simp [Script.origins], ?_⟩
        rw [← sub_succ_succ, rest.shift_before (by omega)]
        omega
      · rw [← sub_succ_succ, Script.origins, getElem?_cons_later later]
        exact ih unrecorded later (by simp at inside; omega)
  | @kept i j line s rs rest ih =>
      have later : j < n := by
        refine Nat.lt_of_le_of_ne place fun same => ?_
        rw [recorded?_cons_of_eq (by rw [same]; rfl)] at unrecorded
        cases unrecorded
      rw [recorded?_cons_of_ne (by simp [Record.new?]; omega)] at unrecorded
      rw [shift_kept place, Script.origins, getElem?_cons_later later]
      exact ih unrecorded later (by simp at inside; omega)
  | removed _ ih =>
      rw [recorded?_cons_of_ne (by simp [Record.new?])] at unrecorded
      rw [shift_removed place]
      exact ih unrecorded place inside
  | @added i j line s rs rest ih =>
      have later : j < n := by
        refine Nat.lt_of_le_of_ne place fun same => ?_
        rw [recorded?_cons_of_eq (by rw [same]; rfl)] at unrecorded
        cases unrecorded
      rw [recorded?_cons_of_ne (by simp [Record.new?]; omega)] at unrecorded
      rw [shift_added place, Script.origins, getElem?_cons_later later]
      exact ih unrecorded later (by simp at inside; omega)

/-- **On a kept line that has a record, the running shift leads to its old line too**: the
record sets the shift, and what comes behind it does not apply to the line any more. -/
theorem shift_recorded {o : Nat} (records : Recorded i j s rs)
    (found : recorded? rs n = some (some o)) (place : j ≤ n) :
    (n : Int) - shift n rs ((j : Int) - i) = o := by
  induction records with
  | done => simp [recorded?] at found
  | @passed i j line s rs rest ih =>
      have later : j < n := by
        refine Nat.lt_of_le_of_ne place fun same => ?_
        rw [rest.recorded?_before (by omega)] at found
        cases found
      rw [← sub_succ_succ]
      exact ih found later
  | @kept i j line s rs rest ih =>
      rw [shift_kept place]
      -- The line of this record: the shift up to here is what its numbers differ by.
      rcases Nat.eq_or_lt_of_le place with same | later
      · subst same
        rw [recorded?_cons_of_eq rfl] at found
        cases found
        rw [rest.shift_before (by omega)]
        omega
      · rw [recorded?_cons_of_ne (by simp [Record.new?]; omega)] at found
        exact ih found later
  | removed _ ih =>
      rw [recorded?_cons_of_ne (by simp [Record.new?])] at found
      rw [shift_removed place]
      exact ih found place
  | @added i j line s rs rest ih =>
      rcases Nat.eq_or_lt_of_le place with same | later
      · subst same
        rw [recorded?_cons_of_eq rfl] at found
        cases found
      · rw [recorded?_cons_of_ne (by simp [Record.new?]; omega)] at found
        rw [shift_added place]
        exact ih found later

/-- **Behind the last line, the running shift is the difference of the lengths.** -/
theorem shift_past (records : Recorded i j s rs) (past : j + s.newLines.length ≤ n) :
    shift n rs ((j : Int) - i) =
      ((j + s.newLines.length : Nat) : Int) - (i + s.oldLines.length : Nat) := by
  induction records with
  | done => rfl
  | passed _ ih =>
      simp only [Script.newLines_keep, Script.oldLines_keep, List.length_cons] at past ⊢
      rw [← sub_succ_succ, ih (by omega)]
      omega
  | kept _ ih =>
      simp only [Script.newLines_keep, Script.oldLines_keep, List.length_cons] at past ⊢
      rw [shift_kept (by omega), ih (by omega)]
      omega
  | removed _ ih =>
      simp only [Script.newLines_remove, Script.oldLines_remove, List.length_cons] at past ⊢
      rw [shift_removed (by omega), ih (by omega)]
      omega
  | added _ ih =>
      simp only [Script.newLines_add, Script.oldLines_add, List.length_cons] at past ⊢
      rw [shift_added (by omega), ih (by omega)]
      omega

/-- Behind the last line there is no record. -/
theorem recorded?_past (records : Recorded i j s rs) (past : j + s.newLines.length ≤ n) :
    recorded? rs n = none := by
  cases found : recorded? rs n with
  | none => rfl
  | some r =>
      have origin := records.recorded?_sound found (by omega)
      have inside := (List.getElem?_eq_some_iff.mp origin).1
      rw [Script.length_origins] at inside
      omega

end Recorded

/-! ### Failures -/

/-- A lookup that fails names the line that was looked up. -/
theorem LineMap.oldLine_eq_error {m : LineMap} {line : Nat}
    (fails : ∀ old, m.oldLine line ≠ .ok old) : m.oldLine line = .error (.unmapped line) := by
  unfold oldLine at fails ⊢
  by_cases outside : line = 0 ∨ m.deleted = true
  · rw [if_pos outside]
  · rw [if_neg outside] at fails ⊢
    cases found : recorded? m.records line with
    | some old =>
        rw [found] at fails
        exact absurd rfl (fails old)
    | none =>
        rw [found] at fails
        unfold extrapolate at fails ⊢
        by_cases inRange : 0 < (line : Int) - shift line m.records 0 ∧
            (line : Int) - shift line m.records 0 ≤ lineMax
        · simp only [if_pos inRange] at fails
          exact absurd rfl (fails _)
        · simp only [if_neg inRange]
          rfl

end PatchLint.Diff
