import PatchLint.Proofs.Diff.Blocks
import PatchLint.Proofs.Results

/-!
The old lines that a diff maps to.

A hunk may start at line 0 of the old file, where there is no line. As diff tools write it,
such a hunk stands in front of the first line, and all that it does is to add lines
(`Block.AddsAtZero`).

* `LineMap.oldLine_pos`: then no line is mapped to line 0.
-/

namespace PatchLint.Diff

/-- If the block starts at line 0 of the old file, each of its lines that has a record is an
added one. -/
def Block.AddsAtZero (b : Block) : Prop :=
  ∀ h : Hunk, h.IsHeader b.header → h.oldStart = 0 →
    ∀ line ∈ h.recorded [] b.body, Kind.ofLine line = .added

/-- It is enough to look at the hunk that the header announces. -/
theorem Block.addsAtZero_iff {b : Block} :
    b.AddsAtZero ↔ ∀ h ∈ Hunk.ofLine? b.header, h.oldStart = 0 →
      ∀ line ∈ h.recorded [] b.body, Kind.ofLine line = .added := by
  simp only [AddsAtZero, Option.mem_def, Hunk.ofLine?_eq_some]

instance (b : Block) : Decidable b.AddsAtZero := decidable_of_iff _ Block.addsAtZero_iff.symm

/-- The records of lines that are all added show no kept line. -/
theorem Numbered.not_kept {i j old new : Nat} {lines : List (List Char)} {rs : List Record}
    (numbered : Numbered i j lines rs) (added : ∀ line ∈ lines, Kind.ofLine line = .added) :
    .kept old new ∉ rs := by
  intro mem
  have kind : Kind.kept ∈ lines.map Kind.ofLine := by
    rw [← numbered.kinds]
    exact List.mem_map.mpr ⟨_, mem, rfl⟩
  obtain ⟨line, inside, isKept⟩ := List.mem_map.mp kind
  rw [added line inside] at isKept
  cases isKept

/-- No record comes in front of the first old line. -/
theorem Numbered.le_old {i j old : Nat} {lines : List (List Char)} {r : Record}
    {rs : List Record} (numbered : Numbered i j lines rs) (mem : r ∈ rs)
    (stands : r.old? = some old) : i ≤ old := by
  have place : old ∈ rs.filterMap Record.old? := List.mem_filterMap.mpr ⟨r, mem, stands⟩
  rw [numbered.old, List.mem_range'_1] at place
  exact place.1

/-- A kept line of a block is a line of the old file. -/
theorem Block.Has.pos_of_kept {b : Block} {h : Hunk} {rs : List Record} (has : b.Has h rs)
    (adds : b.AddsAtZero) {old new : Nat} (mem : .kept old new ∈ rs) : 0 < old := by
  obtain ⟨header, numbered⟩ := has
  rcases Nat.eq_zero_or_pos h.oldStart with atZero | inFile
  · exact absurd mem (numbered.not_kept (adds h header atZero))
  · exact Nat.lt_of_lt_of_le inFile (numbered.le_old mem rfl)

/-- If no block keeps a line at zero, every kept line has a real number in the old file. -/
theorem Describes.pos_of_kept {bs : List Block} {rs : List Record} (describes : Describes bs rs)
    (adds : ∀ b ∈ bs, b.AddsAtZero) {old new : Nat} (mem : .kept old new ∈ rs) : 0 < old := by
  induction describes with
  | nil => cases mem
  | block has _ ih =>
      rcases List.mem_append.mp mem with mem | mem
      · exact has.pos_of_kept (adds _ List.mem_cons_self) mem
      · exact ih (fun b later => adds b (List.mem_cons_of_mem _ later)) mem

/-- A new line that has a record and an old line was kept. -/
theorem kept_of_recorded? {rs : List Record} {old new : Nat}
    (found : recorded? rs new = some (some old)) : .kept old new ∈ rs := by
  obtain ⟨r, first, stands⟩ := Option.map_eq_some_iff.mp found
  have mem := List.mem_of_find?_eq_some first
  have place : r.new? = some new := by simpa using List.find?_some first
  cases r with
  | kept o n =>
      cases stands
      cases place
      exact mem
  | added n => cases stands
  | removed o => cases place

/-- A line that is reached by the shift is a real one. -/
theorem extrapolate_pos {rs : List Record} {line old : Nat}
    (mapped : extrapolate rs line = .ok old) : 0 < old := by
  unfold extrapolate at mapped
  by_cases inRange : 0 < (line : Int) - shift line rs 0 ∧ (line : Int) - shift line rs 0 ≤ lineMax
  · simp only [if_pos inRange, Except.ok.injEq] at mapped
    omega
  · simp only [if_neg inRange] at mapped
    cases mapped

namespace LineMap

/-- The old line of a line is that of its record, or else one to which the shift leads, and there
is no line 0 among these. -/
theorem recorded_or_pos {m : LineMap} {line old : Nat}
    (mapped : m.oldLine line = .ok (some old)) :
    recorded? m.records line = some (some old) ∨
      recorded? m.records line = none ∧ 0 < old := by
  unfold oldLine at mapped
  split at mapped
  · cases mapped
  split at mapped
  · rename_i found
    cases mapped
    exact .inl found
  · rename_i unrecorded
    obtain ⟨n, projected, same⟩ := map_eq_ok.mp mapped
    cases same
    exact .inr ⟨unrecorded, extrapolate_pos projected⟩

/-- **No line is mapped to line 0**, if the blocks of the diff that start there only add
lines. -/
theorem oldLine_pos {diff : String} (adds : ∀ b ∈ blocks diff, b.AddsAtZero) {m : LineMap}
    (read : ofText diff = .ok m) {line old : Nat} (mapped : m.oldLine line = .ok (some old)) :
    0 < old := by
  rcases recorded_or_pos mapped with found | ⟨-, positive⟩
  · exact (describes_of_ofText read).pos_of_kept adds (kept_of_recorded? found)
  · exact positive

end LineMap

end PatchLint.Diff
