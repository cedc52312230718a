import PatchLint.Proofs.Diff.Mapping
import PatchLint.Proofs.Diff.OldLines

/-!
The two ways to look a line up agree.

A line that a hunk shows as kept can be looked up by its record, and just as well through the
running shift, as if there were no record of it.

* `Scan.InRange.step`: a record has line numbers that another line can follow.
* `LineMap.extrapolate_of_recorded`: where a kept line has a record, both ways lead to the same
  old line.
-/

namespace PatchLint.Diff

/-- The lines of the text are a preamble and a unified diff of the script behind it. -/
def Shows (script : Script) (diff : String) : Prop :=
  ∃ preamble hunks, (∀ line ∈ preamble, isHunkHeader line = false) ∧
    PrintsFrom 1 1 script hunks ∧ Text.splitLines diff.toList = preamble ++ hunks

/-! ### The line numbers of records -/

namespace Cursor

/-- The old number in a record is where the cursor stands. -/
theorem old?_record {c : Cursor} {line : List Char} {old : Nat}
    (stands : (c.record line).old? = some old) : old = c.oldLine := by
  rcases kind_cases c line with ⟨-, -, -, record⟩ | ⟨-, -, -, record⟩ | ⟨-, -, -, record⟩
  · rw [record] at stands
    exact (Option.some.inj stands).symm
  · rw [record] at stands
    cases stands
  · rw [record] at stands
    exact (Option.some.inj stands).symm

/-- Behind a line of the old file there is a line number for the next one. -/
theorem lt_of_advance {c next : Cursor} {r : Record} {old : Nat} (stands : r.old? = some old)
    (advanced : c.advance r = .ok next) : c.oldLine < lineMax := by
  rw [advance, stands] at advanced
  simp only [Option.isSome_some, if_true] at advanced
  obtain ⟨_, fits, -⟩ := bind_eq_ok.mp advanced
  unfold succ at fits
  split at fits
  · assumption
  · cases fits

end Cursor

namespace Scan

/-- Behind each old line that was read there is a line number for the next one. -/
def InRange (s : Scan) : Prop := ∀ r ∈ s.map.records, ∀ old, r.old? = some old → old < lineMax

/-- A body line leaves room for the next one, or it is refused. -/
theorem InRange.body {s next : Scan} {line : List Char} (inRange : s.InRange)
    (read : s.body line = .ok next) : next.InRange := by
  obtain ⟨cursor, advanced, same⟩ := bind_eq_ok.mp read
  cases same
  intro r mem old stands
  rcases List.mem_append.mp mem with mem | mem
  · exact inRange r mem old stands
  · cases List.mem_singleton.mp mem
    rw [Cursor.old?_record stands]
    exact Cursor.lt_of_advance stands advanced

/-- A line that is read leaves the line numbers in range. -/
theorem InRange.step {s next : Scan} {line : List Char} (inRange : s.InRange)
    (read : s.step line = .ok next) : next.InRange := by
  unfold Scan.step at read
  split at read
  · cases read
    exact inRange
  split at read
  · unfold hunk at read
    split at read
    · cases read
    · cases read
      exact inRange
  split at read
  · exact inRange.body read
  split at read
  · unfold fileHeader at read
    split at read
    · cases read
    split at read
    · cases read
      exact inRange
    · cases read
      exact inRange
  split at read
  · cases read
    exact inRange
  · exact inRange.body read

end Scan

namespace LineMap

/-- The old lines of the records of a diff are in range. -/
theorem inRange_of_ofText {diff : String} {m : LineMap} (read : ofText diff = .ok m) :
    ∀ r ∈ m.records, ∀ old, r.old? = some old → old < lineMax := by
  obtain ⟨last, run, same⟩ := bind_eq_ok.mp read
  cases same
  exact foldlM_ok_preserves Scan.InRange (fun _ _ _ _ read before => before.step read) run
    (List.forall_mem_nil _)

/-! ### Agreement -/

/-- **Both ways to look up a kept line agree.** A diff that shows a script can be read if its
files are not too long; and wherever one is read, a line whose record says that it was kept is
led to the same old line by the running shift. -/
theorem extrapolate_of_recorded {script : Script} {diff : String} (shows : Shows script diff) :
    (script.oldLines.length < lineMax → script.newLines.length < lineMax →
      ∃ m, ofText diff = .ok m) ∧
    ∀ m, ofText diff = .ok m → ∀ n old, recorded? m.records n = some (some old) →
      extrapolate m.records n = .ok old := by
  obtain ⟨preamble, hunks, plain, shown, cut⟩ := shows
  constructor
  · intro oldFits newFits
    rw [ofText, cut]
    exact exists_ofLines plain shown oldFits newFits
  · intro m read n old found
    have last := inRange_of_ofText read _ (kept_of_recorded? found) old rfl
    rw [ofText, cut] at read
    obtain ⟨-, described⟩ := described_of_ofLines plain shown read
    have first : 1 ≤ n := by
      refine Nat.pos_of_ne_zero fun atZero => ?_
      rw [described.recorded?_before (by omega)] at found
      cases found
    obtain ⟨_, -, -, inOld, -⟩ := Script.line_of_keeps
      ((Script.keeps_iff first).mpr (described.recorded?_sound found first))
    have place : (n : Int) - shift n m.records 0 = old := described.shift_recorded found first
    simp only [extrapolate, place]
    rw [if_pos (by omega)]
    rfl

/-- The last line is recorded in the second hunk, and the shift of both says the same. -/
theorem extrapolate_of_recorded_two_hunks :
    let script : Script := [.add ['x'], .keep ['a'], .keep ['b'], .remove ['c'], .keep ['d']]
    let diff := "+++ b/f\n@@ -0,0 +1 @@\n+x\n@@ -2,3 +3,2 @@ b\n b\n-c\n d\n"
    Shows script diff ∧
      (script.oldLines.length < lineMax → script.newLines.length < lineMax →
        ∃ m, ofText diff = .ok m) ∧
      ∀ m, ofText diff = .ok m → ∀ n old, recorded? m.records n = some (some old) →
        extrapolate m.records n = .ok old := by
  intro script diff
  have adds : PrintsBody [.add ['x']] ["+x".toList] := .step (List.forall_mem_nil _) .done
  have changes : PrintsBody [.keep ['b'], .remove ['c'], .keep ['d']]
      [" b".toList, "-c".toList, " d".toList] :=
    .step (List.forall_mem_nil _) (.step (List.forall_mem_nil _)
      (.step (List.forall_mem_nil _) .done))
  have first : Hunk.WrittenAs ⟨0, 0, 1, 1⟩ "@@ -0,0 +1 @@".toList :=
    ⟨_, [], [], .written 0, .omitted, by decide, rfl⟩
  have second : Hunk.WrittenAs ⟨2, 3, 3, 2⟩ "@@ -2,3 +3,2 @@ b".toList :=
    ⟨_, _, [' ', 'b'], .written 3, .written 2, by decide, rfl⟩
  have later := @PrintsFrom.hunk 1 2 [['a']] _ [] _ _ _ _ (List.cons_ne_nil _ _) second
    ⟨rfl, rfl, fun _ => rfl, fun _ => rfl, by decide, by decide⟩ changes (.done [])
  have hunks := @PrintsFrom.hunk 1 1 [] _ _ _ _ _ _ (List.cons_ne_nil _ _) first
    ⟨rfl, rfl, fun some_old => absurd rfl some_old, fun _ => rfl, by decide, by decide⟩ adds later
  have shows : Shows script diff :=
    ⟨["+++ b/f".toList], _, List.forall_mem_singleton.mpr rfl, hunks, by decide +kernel⟩
  exact ⟨shows, extrapolate_of_recorded shows⟩

end LineMap

end PatchLint.Diff
