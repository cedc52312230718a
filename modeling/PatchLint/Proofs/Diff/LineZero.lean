import PatchLint.Proofs.Diff.Lookup
import PatchLint.Proofs.Diff.OldLines

/-!
New lines that are mapped to line 0 of the old file, where there is no line.

A new line without a record is led to an old line by the running shift, and what comes out is
checked. A record is believed as it stands. So it matters that a hunk may start at line 0: its
added lines have no old line, but a kept line in front of any removed one is numbered 0.

* `recorded?_records_eq_zero`: the line of a hunk whose record says 0.
* `KeepsZero.recorded?_iff`: the same for all hunks of a diff, where the first record counts.
* `LineMap.oldLine_real`: every other line that is mapped is mapped to a line of the old file.
* `LineMap.not_oldLine_real`: and that line is not.
-/

namespace PatchLint.Diff

/-! ### Lines that are shown as line 0 -/

/-- Of the lines, numbered from `j` on in the new file, the first one that stands in the old
file is kept, and its new number is `n`. -/
def KeptFirst (j : Nat) (lines : List (List Char)) (n : Nat) : Prop :=
  ∃ added kept rest, lines = added ++ kept :: rest ∧ (∀ line ∈ added, Kind.ofLine line = .added) ∧
    Kind.ofLine kept = .kept ∧ n = j + added.length

/-- The block starts at line 0 of the old file, and shows the new line `n` there. -/
def Block.KeepsZero (b : Block) (n : Nat) : Prop :=
  ∃ h : Hunk, h.IsHeader b.header ∧ h.oldStart = 0 ∧ KeptFirst h.newStart (h.recorded [] b.body) n

/-- The block shows the new line `n`, as a kept or as an added one. -/
def Block.Covers (b : Block) (n : Nat) : Prop :=
  ∃ h : Hunk, h.IsHeader b.header ∧ h.newStart ≤ n ∧
    n < h.newStart + newCount (h.recorded [] b.body)

/-- The first of the blocks that shows the new line `n` shows it as line 0 of the old file. -/
inductive KeepsZero (n : Nat) : List Block → Prop where
  | here {b : Block} {bs : List Block} (keeps : b.KeepsZero n) : KeepsZero n (b :: bs)
  | later {b : Block} {bs : List Block} (uncovered : ¬ b.Covers n) (rest : KeepsZero n bs) :
      KeepsZero n (b :: bs)

section

variable {j n : Nat} {line : List Char} {lines : List (List Char)}

theorem not_keptFirst_nil : ¬ KeptFirst j [] n := by
  rintro ⟨added, kept, rest, split, -⟩
  simp at split

/-- The first line is the one, or it is added and the one comes later. -/
theorem keptFirst_cons : KeptFirst j (line :: lines) n ↔
    (Kind.ofLine line = .kept ∧ n = j) ∨
      (Kind.ofLine line = .added ∧ KeptFirst (j + 1) lines n) := by
  constructor
  · rintro ⟨added, kept, rest, split, adds, keeps, place⟩
    cases added with
    | nil =>
        cases split
        exact .inl ⟨keeps, by simpa using place⟩
    | cons first added =>
        cases split
        obtain ⟨isAdded, adds⟩ := List.forall_mem_cons.mp adds
        refine .inr ⟨isAdded, added, kept, rest, rfl, adds, keeps, ?_⟩
        rw [place, List.length_cons]
        omega
  · rintro (⟨keeps, place⟩ | ⟨isAdded, added, kept, rest, rfl, adds, keeps, place⟩)
    · exact ⟨[], line, lines, rfl, List.forall_mem_nil _, keeps, place⟩
    · refine ⟨line :: added, kept, rest, rfl, List.forall_mem_cons.mpr ⟨isAdded, adds⟩, keeps, ?_⟩
      rw [place, List.length_cons]
      omega

/-- The line that is shown is none before the first. -/
theorem KeptFirst.le (keeps : KeptFirst j lines n) : j ≤ n := by
  obtain ⟨added, -, -, -, -, -, rfl⟩ := keeps
  exact Nat.le_add_right j added.length

end

/-! ### The records of a hunk -/

/-- Behind line 0, no record says 0. -/
theorem recorded?_records_ne_zero {c : Cursor} (behind : 0 < c.oldLine)
    (lines : List (List Char)) (n : Nat) : recorded? (c.records lines) n ≠ some (some 0) := by
  intro found
  have least := (c.numbered_records lines).le_old (kept_of_recorded? found) rfl
  omega

/-- **From line 0 on, the record of a new line says 0** exactly if this line is the first one that
stands in the old file, and is kept. -/
theorem recorded?_records_eq_zero {c : Cursor} (start : c.oldLine = 0)
    (lines : List (List Char)) (n : Nat) :
    recorded? (c.records lines) n = some (some 0) ↔ KeptFirst c.newLine lines n := by
  induction lines generalizing c with
  | nil =>
      constructor
      · intro found
        cases found
      · intro keeps
        exact absurd keeps not_keptFirst_nil
  | cons line lines ih =>
      rw [Cursor.records, keptFirst_cons]
      -- An added line leaves the cursor at line 0; any other takes it away from there for good.
      rcases kind_cases c line with
        ⟨kind, old, new, record⟩ | ⟨kind, old, new, record⟩ | ⟨kind, old, new, record⟩
      · simp only [record, start, kind, true_and, reduceCtorEq, false_and, or_false]
        by_cases here : n = c.newLine
        · rw [recorded?_cons_of_eq (by rw [here]; rfl)]
          simp [Record.old?, here]
        · have behind : 0 < (c.next line).oldLine := by simp [Cursor.next, old]
          rw [recorded?_cons_of_ne (by simp [Record.new?]; omega)]
          simp [here, recorded?_records_ne_zero behind]
      · have next : (c.next line).newLine = c.newLine + 1 := by simp [Cursor.next, new]
        have rest := ih (c := c.next line) (by simp [Cursor.next, old, start])
        rw [next] at rest
        simp only [record, kind, reduceCtorEq, false_and, true_and, false_or]
        by_cases here : n = c.newLine
        · rw [recorded?_cons_of_eq (by rw [here]; rfl)]
          constructor
          · intro found
            cases found
          · intro keeps
            have place := keeps.le
            omega
        · rw [recorded?_cons_of_ne (by simp [Record.new?]; omega)]
          exact rest
      · have behind : 0 < (c.next line).oldLine := by simp [Cursor.next, old]
        simp only [record, kind, reduceCtorEq, false_and, or_false, iff_false]
        rw [recorded?_cons_of_ne (by simp [Record.new?])]
        exact recorded?_records_ne_zero behind lines n

/-! ### The records of a diff -/

/-- The first record of a line decides. -/
theorem recorded?_append (rs more : List Record) (n : Nat) :
    recorded? (rs ++ more) n = (recorded? rs n).or (recorded? more n) := by
  simp only [recorded?, List.find?_append]
  cases rs.find? fun r => r.new? == some n with
  | none => rfl
  | some r => rfl

/-- Nothing is recorded of a line exactly if no record has its number. -/
theorem recorded?_eq_none {rs : List Record} {n : Nat} :
    recorded? rs n = none ↔ n ∉ rs.filterMap Record.new? := by
  simp [recorded?]

/-- A header announces one hunk. -/
theorem Hunk.IsHeader.unique {h h' : Hunk} {line : List Char} (one : h.IsHeader line)
    (other : h'.IsHeader line) : h = h' :=
  Option.some.inj ((Hunk.ofLine?_eq_some.mpr one).symm.trans (Hunk.ofLine?_eq_some.mpr other))

section

variable {b : Block} {h : Hunk} {rs : List Record} {n : Nat}

/-- The new lines that have a record are those that the block shows. -/
theorem Block.Has.covers_iff (has : b.Has h rs) : b.Covers n ↔ recorded? rs n ≠ none := by
  obtain ⟨header, numbered⟩ := has
  have shown : b.Covers n ↔ h.newStart ≤ n ∧ n < h.newStart + newCount (h.recorded [] b.body) := by
    constructor
    · rintro ⟨h', header', place⟩
      cases header.unique header'
      exact place
    · intro place
      exact ⟨h, header, place⟩
  rw [shown, ne_eq, recorded?_eq_none, Classical.not_not, numbered.new,
    length_new_of_kinds numbered.kinds, List.mem_range'_1]

/-- The new line whose record says 0 is the one that the block shows there. -/
theorem Block.Has.recorded?_eq_zero (has : b.Has h rs) :
    recorded? rs n = some (some 0) ↔ b.KeepsZero n := by
  obtain ⟨header, numbered⟩ := has
  have same : rs = (Cursor.ofHunk h).records (h.recorded [] b.body) :=
    Numbered.eq_records (c := .ofHunk h) numbered
  rw [same]
  by_cases start : h.oldStart = 0
  · rw [recorded?_records_eq_zero (c := .ofHunk h) start]
    constructor
    · intro keeps
      exact ⟨h, header, start, keeps⟩
    · rintro ⟨h', header', -, keeps⟩
      cases header.unique header'
      exact keeps
  · constructor
    · intro found
      have behind : 0 < (Cursor.ofHunk h).oldLine := Nat.pos_of_ne_zero start
      exact absurd found (recorded?_records_ne_zero behind _ n)
    · rintro ⟨h', header', start', -⟩
      cases header.unique header'
      exact absurd start' start

/-- **Of all records of a new line the first one counts.** It says 0 if the first block that shows
the line does. -/
theorem KeepsZero.recorded?_iff {bs : List Block} (describes : Describes bs rs) :
    recorded? rs n = some (some 0) ↔ KeepsZero n bs := by
  induction describes with
  | nil =>
      constructor
      · intro found
        cases found
      · intro keeps
        cases keeps
  | @block b bs h rs more has rest ih =>
      rw [recorded?_append]
      -- A block that shows the line decides alone, and one that does not leaves it to the others.
      by_cases covers : b.Covers n
      · obtain ⟨origin, found⟩ := Option.ne_none_iff_exists'.mp (has.covers_iff.mp covers)
        have here := has.recorded?_eq_zero (n := n)
        rw [found] at here ⊢
        rw [Option.some_or, here]
        constructor
        · intro keeps
          exact .here keeps
        · rintro (keeps | ⟨uncovered, -⟩)
          · exact keeps
          · exact absurd covers uncovered
      · have unrecorded : recorded? rs n = none :=
          Classical.not_not.mp fun found => covers (has.covers_iff.mpr found)
        have here := has.recorded?_eq_zero (n := n)
        rw [unrecorded] at here ⊢
        rw [Option.none_or, ih]
        constructor
        · intro keeps
          exact .later covers keeps
        · rintro (keeps | ⟨-, keeps⟩)
          · cases here.mpr keeps
          · exact keeps

end

namespace LineMap

/-- **A line that is mapped is mapped to a line of the old file**, except for one that a hunk shows
as line 0, and that one is mapped to line 0. -/
theorem oldLine_real {diff : String} {m : LineMap} (read : ofText diff = .ok m) (n : Nat) :
    (∀ old, m.oldLine n = .ok (some old) → (1 ≤ old ↔ ¬ KeepsZero n (blocks diff))) ∧
      (KeepsZero n (blocks diff) → 0 < n → m.deleted = false → m.oldLine n = .ok (some 0)) := by
  have zero := KeepsZero.recorded?_iff (n := n) (describes_of_ofText read)
  constructor
  · intro old mapped
    rw [← zero]
    rcases recorded_or_pos mapped with found | ⟨unrecorded, positive⟩
    · rw [found, Option.some_inj, Option.some_inj, Nat.one_le_iff_ne_zero]
    · rw [unrecorded]
      simp [Nat.one_le_iff_ne_zero, Nat.ne_of_gt positive]
  · intro keeps positive there
    rw [oldLine, there, zero.mpr keeps, if_neg (by simp; omega)]

/-- A hunk at line 0 does no harm to the lines behind it. -/
theorem oldLine_real_two_hunks :
    ofText "@@ -0,0 +1 @@\n+a\n@@ -2 +3 @@\n-b\n+c\n" =
        .ok { records := [.added 1, .removed 2, .added 3] } ∧
      oldLine { records := [.added 1, .removed 2, .added 3] } 4 = .ok (some 3) ∧
      ¬ KeepsZero 4 (blocks "@@ -0,0 +1 @@\n+a\n@@ -2 +3 @@\n-b\n+c\n") := by
  have read : ofText "@@ -0,0 +1 @@\n+a\n@@ -2 +3 @@\n-b\n+c\n" =
      .ok { records := [.added 1, .removed 2, .added 3] } := by rfl
  have mapped : oldLine { records := [.added 1, .removed 2, .added 3] } 4 = .ok (some 3) := rfl
  exact ⟨read, mapped, ((oldLine_real read 4).1 3 mapped).mp (by decide)⟩

/-- **Not every line that is mapped is mapped to a line of the old file.** -/
theorem not_oldLine_real :
    ¬ ∀ (diff : String) (m : LineMap) (n old : Nat), ofText diff = .ok m →
      m.oldLine n = .ok (some old) → 1 ≤ old := by
  intro real
  have read : ofText "@@ -0,1 +1 @@\n a\n" = .ok { records := [.kept 0 1] } := rfl
  have mapped : oldLine { records := [.kept 0 1] } 1 = .ok (some 0) := rfl
  have positive := real _ _ 1 0 read mapped
  exact absurd positive (by decide)

end LineMap

end PatchLint.Diff
