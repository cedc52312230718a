import PatchLint.Proofs.Diff.Body
import PatchLint.Proofs.Diff.Lookup
import PatchLint.Proofs.Results

/-!
Mapping lines through a printed diff.

`Prints` relates an edit script to the texts that show it as a unified diff. The script may
be cut anywhere: what is shown is a list of hunks, and only kept lines may stand between
them. So the width of the context is free, and may be zero.

* `PrintsFrom.described`: the records that are read from a printed diff describe its script.
* `LineMap.oldLine_of_prints`: every line of the new file is mapped to where it comes from.
-/

namespace PatchLint.Diff

open PatchLint.Text (OneLine unlines)

/-! ### Printed diffs -/

def Edit.bodyLine : Edit → List Char
  | .keep line => ' ' :: line
  | .remove line => '-' :: line
  | .add line => '+' :: line

/-- The lines are the body of a hunk: one line for each step, with any remarks behind it. -/
inductive PrintsBody : Script → List (List Char) → Prop where
  | done : PrintsBody [] []
  | step {e : Edit} {s : Script} {remarks lines : List (List Char)}
      (remark : ∀ line ∈ remarks, isRemark line = true ∧ OneLine line)
      (rest : PrintsBody s lines) : PrintsBody (e :: s) (e.bodyLine :: (remarks ++ lines))

/-- The hunk announces the steps, where `i` and `j` are the numbers of their first lines.
A start says nothing for a side without lines, and can be any line number there. -/
structure Hunk.Announces (h : Hunk) (i j : Nat) (edits : Script) : Prop where
  oldCount : h.oldCount = edits.oldLines.length
  newCount : h.newCount = edits.newLines.length
  oldStart : edits.oldLines ≠ [] → h.oldStart = i
  newStart : edits.newLines ≠ [] → h.newStart = j
  oldInRange : h.oldStart ≤ lineMax
  newInRange : h.newStart ≤ lineMax

/-- The lines show the script in hunks, where `i` and `j` are the numbers of the next line
in the old file and in the new one. -/
inductive PrintsFrom : (i j : Nat) → Script → List (List Char) → Prop where
  | done {i j : Nat} (gap : List (List Char)) : PrintsFrom i j (gap.map .keep) []
  | hunk {i j : Nat} {gap : List (List Char)} {edits rest : Script} {h : Hunk}
      {header : List Char} {body lines : List (List Char)} (nonempty : edits ≠ [])
      (written : h.WrittenAs header)
      (announces : h.Announces (i + gap.length) (j + gap.length) edits)
      (shown : PrintsBody edits body)
      (later : PrintsFrom (i + gap.length + edits.oldLines.length)
        (j + gap.length + edits.newLines.length) rest lines) :
      PrintsFrom i j (gap.map .keep ++ (edits ++ rest)) (header :: body ++ lines)

/-- A line that may stand in front of the hunks of a file that exists. -/
structure PreambleLine (line : List Char) : Prop where
  oneLine : OneLine line
  plain : isHunkHeader line = false
  existing : ∀ value, target? line = some value → namesNoFile value = false

/-- The text is a unified diff of the script: a preamble, and behind it the hunks. -/
def Prints (s : Script) (diff : String) : Prop :=
  ∃ preamble hunks, (∀ line ∈ preamble, PreambleLine line) ∧ PrintsFrom 1 1 s hunks ∧
    diff = String.ofList (unlines (preamble ++ hunks))

/-! ### Bodies -/

theorem isRemark_bodyLine (e : Edit) : isRemark e.bodyLine = false := by
  cases e <;> rfl

theorem isHunkHeader_bodyLine (e : Edit) : isHunkHeader e.bodyLine = false := by
  cases e <;> rfl

/-- The body shows as many lines of the old file as the script has. -/
theorem oldCount_bodyLines (s : Script) :
    oldCount (s.map Edit.bodyLine) = s.oldLines.length := by
  induction s with
  | nil => rfl
  | cons e s ih =>
      rw [List.map_cons, oldCount_cons, ih]
      cases e <;> rfl

/-- It shows as many of the new file, too. -/
theorem newCount_bodyLines (s : Script) :
    newCount (s.map Edit.bodyLine) = s.newLines.length := by
  induction s with
  | nil => rfl
  | cons e s ih =>
      rw [List.map_cons, newCount_cons, ih]
      cases e <;> rfl

/-- The line numbers of a hunk stay in range if those of its script do. -/
theorem Hunk.Announces.fits {h : Hunk} {i j : Nat} {edits : Script}
    (announces : h.Announces i j edits) (old : i + edits.oldLines.length ≤ lineMax)
    (new : j + edits.newLines.length ≤ lineMax) :
    (Cursor.ofHunk h).Fits (edits.map Edit.bodyLine) := by
  rw [Cursor.Fits, oldCount_bodyLines, newCount_bodyLines]
  constructor
  · by_cases empty : edits.oldLines = []
    · simpa [empty, Cursor.ofHunk] using announces.oldInRange
    · rw [Cursor.ofHunk, announces.oldStart empty]
      exact old
  · by_cases empty : edits.newLines = []
    · simpa [empty, Cursor.ofHunk] using announces.newInRange
    · rw [Cursor.ofHunk, announces.newStart empty]
      exact new

namespace PrintsBody

/-- Remarks aside, a body has one line for each step. -/
theorem spoken_eq {s : Script} {body : List (List Char)} (shown : PrintsBody s body) :
    spoken body = s.map Edit.bodyLine := by
  induction shown with
  | done => rfl
  | @step e s remarks lines remark _ ih =>
      have silent : spoken remarks = [] := by
        refine List.filter_eq_nil_iff.mpr fun line mem => ?_
        simp [(remark line mem).1]
      have heard : spoken (e.bodyLine :: (remarks ++ lines)) =
          e.bodyLine :: (spoken remarks ++ spoken lines) := by
        simp [spoken, isRemark_bodyLine]
      rw [heard, silent, ih]
      rfl

/-- No line of a body is taken for a header. -/
theorem isHunkHeader_eq {s : Script} {body : List (List Char)} (shown : PrintsBody s body) :
    ∀ line ∈ body, isHunkHeader line = false := by
  induction shown with
  | done =>
      intro line mem
      cases mem
  | @step e s remarks lines remark _ ih =>
      intro line mem
      rcases List.mem_cons.mp mem with rfl | mem
      · exact isHunkHeader_bodyLine e
      · rcases List.mem_append.mp mem with mem | mem
        · exact isHunkHeader_of_isRemark (remark line mem).1
        · exact ih line mem

/-- A printed body supplies what the header of its hunk declares, whatever the lines look
like: a removed line may begin with `--` and an added one with `++`. -/
theorem supplies {h : Hunk} {i j : Nat} {edits : Script} {body : List (List Char)}
    (shown : PrintsBody edits body) (announces : h.Announces i j edits) :
    Supplies h body where
  plain := shown.isHunkHeader_eq
  old := by rw [shown.spoken_eq, oldCount_bodyLines, announces.oldCount]
  new := by rw [shown.spoken_eq, newCount_bodyLines, announces.newCount]

theorem oneLine {s : Script} {body : List (List Char)} (shown : PrintsBody s body)
    (old : ∀ line ∈ s.oldLines, OneLine line) (new : ∀ line ∈ s.newLines, OneLine line) :
    ∀ line ∈ body, OneLine line := by
  induction shown with
  | done =>
      intro line mem
      cases mem
  | @step e s remarks lines remark _ ih =>
      have first : OneLine e.bodyLine ∧ (∀ line ∈ s.oldLines, OneLine line) ∧
          ∀ line ∈ s.newLines, OneLine line := by
        cases e with
        | keep line =>
            simp only [Script.oldLines_keep, Script.newLines_keep, List.forall_mem_cons] at old new
            exact ⟨Text.oneLine_cons.mpr ⟨by decide, old.1⟩, old.2, new.2⟩
        | remove line =>
            simp only [Script.oldLines_remove, List.forall_mem_cons] at old
            exact ⟨Text.oneLine_cons.mpr ⟨by decide, old.1⟩, old.2, new⟩
        | add line =>
            simp only [Script.newLines_add, List.forall_mem_cons] at new
            exact ⟨Text.oneLine_cons.mpr ⟨by decide, new.1⟩, old, new.2⟩
      intro line mem
      rcases List.mem_cons.mp mem with rfl | mem
      · exact first.1
      · rcases List.mem_append.mp mem with mem | mem
        · exact (remark line mem).2
        · exact ih first.2.1 first.2.2 line mem

end PrintsBody

/-- The records of a printed body describe its steps. The cursor need only be right on a
side that has lines left. -/
theorem Recorded.body {edits : Script} {i j : Nat} {c : Cursor} {rest : Script}
    {rs : List Record} (old : edits.oldLines ≠ [] → c.oldLine = i)
    (new : edits.newLines ≠ [] → c.newLine = j)
    (later : Recorded (i + edits.oldLines.length) (j + edits.newLines.length) rest rs) :
    Recorded i j (edits ++ rest) (c.records (edits.map Edit.bodyLine) ++ rs) := by
  induction edits generalizing i j c with
  | nil => exact later
  | cons e s ih =>
      cases e with
      | keep line =>
          obtain rfl := old (by simp)
          obtain rfl := new (by simp)
          refine .kept (ih (fun _ => rfl) (fun _ => rfl) ?_)
          simpa [Nat.add_assoc, Nat.add_comm 1] using later
      | remove line =>
          obtain rfl := old (by simp)
          refine .removed (ih (fun _ => rfl) new ?_)
          simpa [Nat.add_assoc, Nat.add_comm 1] using later
      | add line =>
          obtain rfl := new (by simp)
          refine .added (ih old (fun _ => rfl) ?_)
          simpa [Nat.add_assoc, Nat.add_comm 1] using later

/-! ### Hunks -/

namespace PrintsFrom

variable {i j : Nat} {s : Script} {lines : List (List Char)}

theorem oneLine (prints : PrintsFrom i j s lines) (old : ∀ line ∈ s.oldLines, OneLine line)
    (new : ∀ line ∈ s.newLines, OneLine line) : ∀ line ∈ lines, OneLine line := by
  induction prints with
  | done =>
      intro line mem
      cases mem
  | @hunk i j gap edits rest h header body lines _ written _ shown _ ih =>
      simp only [Script.oldLines_append, Script.newLines_append, List.forall_mem_append]
        at old new
      intro line mem
      rcases List.mem_append.mp mem with mem | mem
      · rcases List.mem_cons.mp mem with rfl | mem
        · exact Hunk.oneLine_of_written written
        · exact shown.oneLine old.2.1 new.2.1 line mem
      · exact ih old.2.2 new.2.2 line mem

/-- Hunks are read if no line number passes the greatest one. -/
theorem exists_run (prints : PrintsFrom i j s lines) (old : i + s.oldLines.length ≤ lineMax)
    (new : j + s.newLines.length ≤ lineMax) (scan : Scan) :
    ∃ last, lines.foldlM Scan.step scan = .ok last := by
  induction prints generalizing scan with
  | done => exact ⟨scan, rfl⟩
  | @hunk i j gap edits rest h header body lines _ written announces shown _ ih =>
      simp only [Script.oldLines_append, Script.newLines_append, List.length_append,
        Script.length_oldLines_keeps, Script.length_newLines_keeps] at old new
      have fits := announces.fits (by omega) (by omega)
      have inRange : h.InRange :=
        ⟨announces.oldInRange, by rw [announces.oldCount]; omega, announces.newInRange,
          by rw [announces.newCount]; omega⟩
      have start : (Cursor.ofHunk h).Fits [] :=
        Cursor.fits_nil.mpr ⟨announces.oldInRange, announces.newInRange⟩
      have read := Scan.foldlM_step_hunk (Hunk.ofLine?_of_written written inRange)
        (shown.supplies announces) start scan
      rw [shown.spoken_eq, Scan.foldlM_body start, if_pos fits] at read
      rw [List.foldlM_append, read]
      exact ih (by omega) (by omega) _

/-- **What is read from the hunks describes the script.** -/
theorem described (prints : PrintsFrom i j s lines) {scan last : Scan}
    (run : lines.foldlM Scan.step scan = .ok last) :
    ∃ rs, last.map = { scan.map with records := scan.map.records ++ rs } ∧
      Recorded i j s rs := by
  induction prints generalizing scan with
  | @done i j gap =>
      cases run
      refine ⟨[], by simp, ?_⟩
      have quiet := Recorded.gap (i := i) (j := j) gap .done
      rwa [List.append_nil] at quiet
  | @hunk i j gap edits rest h header body lines _ written announces shown _ ih =>
      rw [List.foldlM_append, bind_eq_ok] at run
      obtain ⟨middle, first, others⟩ := run
      have start : (Cursor.ofHunk h).Fits [] :=
        Cursor.fits_nil.mpr ⟨announces.oldInRange, announces.newInRange⟩
      obtain ⟨g, read⟩ :=
        Scan.exists_hunk_of_run (Hunk.isHunkHeader_of_written written) first
      obtain ⟨rfl, -⟩ := Hunk.eq_of_written written read
      rw [Scan.foldlM_step_hunk read (shown.supplies announces) start, shown.spoken_eq,
        Scan.foldlM_body start] at first
      -- A hunk whose numbers overflow is not read at all.
      by_cases fits : (Cursor.ofHunk g).Fits (edits.map Edit.bodyLine)
      · rw [if_pos fits] at first
        cases first
        obtain ⟨rs, rest_map, described⟩ := ih others
        refine ⟨(Cursor.ofHunk g).records (edits.map Edit.bodyLine) ++ rs, ?_,
          .gap gap (.body announces.oldStart announces.newStart described)⟩
        rw [rest_map]
        simp [Scan.took]
      · rw [if_neg fits] at first
        cases first

end PrintsFrom

/-! ### The map of a printed diff -/

namespace LineMap

/-- A preamble that names an existing file does not say that the file is deleted. -/
theorem deleted_foldl_headed {lines : List (List Char)}
    (existing : ∀ line ∈ lines, ∀ value, target? line = some value → namesNoFile value = false)
    {m : LineMap} (alive : m.deleted = false) : (lines.foldl headed m).deleted = false := by
  induction lines generalizing m with
  | nil => exact alive
  | cons line lines ih =>
      refine ih (fun l mem => existing l (List.mem_cons_of_mem _ mem)) ?_
      unfold headed
      split
      · exact alive
      · rename_i value names
        exact existing line List.mem_cons_self value names

/-- Lines that show a script are read if its files are not too long. -/
theorem exists_ofLines {script : Script} {preamble hunks : List (List Char)}
    (plain : ∀ line ∈ preamble, isHunkHeader line = false) (shown : PrintsFrom 1 1 script hunks)
    (oldFits : script.oldLines.length < lineMax) (newFits : script.newLines.length < lineMax) :
    ∃ m, ofLines (preamble ++ hunks) = .ok m := by
  have first := Scan.foldlM_step_preamble (s := {}) rfl rfl plain
  obtain ⟨last, read⟩ := shown.exists_run (by omega) (by omega)
    { map := preamble.foldl headed {} }
  refine ⟨last.map, ?_⟩
  rw [ofLines, List.foldlM_append, first]
  simp only [bind, Except.bind, read]
  rfl

/-- **What is read of lines that show a script describes it.** All else is as the preamble
says. -/
theorem described_of_ofLines {script : Script} {preamble hunks : List (List Char)}
    (plain : ∀ line ∈ preamble, isHunkHeader line = false) (shown : PrintsFrom 1 1 script hunks)
    {m : LineMap} (read : ofLines (preamble ++ hunks) = .ok m) :
    m.deleted = (preamble.foldl headed {}).deleted ∧ Recorded 1 1 script m.records := by
  rw [ofLines, List.foldlM_append, Scan.foldlM_step_preamble rfl rfl plain] at read
  obtain ⟨last, run, same⟩ := bind_eq_ok.mp read
  cases same
  obtain ⟨rs, rest, described⟩ := shown.described run
  rw [rest]
  exact ⟨rfl, by simpa [records_foldl_headed] using described⟩

/-- A printed diff is read, and its records describe the script. -/
theorem ofText_of_prints {script : Script} {diff : String} (prints : Prints script diff)
    (oldFits : script.oldLines.length < lineMax) (newFits : script.newLines.length < lineMax)
    (oldLines : ∀ line ∈ script.oldLines, OneLine line)
    (newLines : ∀ line ∈ script.newLines, OneLine line) :
    ∃ m, ofText diff = .ok m ∧ m.deleted = false ∧ Recorded 1 1 script m.records := by
  obtain ⟨preamble, hunks, before, shown, rfl⟩ := prints
  have cut : Text.splitLines (unlines (preamble ++ hunks)) = preamble ++ hunks := by
    refine Text.splitLines_unlines fun line mem => ?_
    rcases List.mem_append.mp mem with mem | mem
    · exact (before line mem).oneLine
    · exact shown.oneLine oldLines newLines line mem
  have plain := fun line mem => (before line mem).plain
  obtain ⟨m, read⟩ := exists_ofLines plain shown oldFits newFits
  obtain ⟨deleted, described⟩ := described_of_ofLines plain shown read
  refine ⟨m, ?_, ?_, described⟩
  · rw [ofText, String.toList_ofList, cut, read]
  · rw [deleted]
    exact deleted_foldl_headed (fun line mem => (before line mem).existing) rfl

variable {m : LineMap} {s : Script} {n : Nat}

/-- A line of the new file is looked up as its origin. -/
theorem oldLine_inside (existing : m.deleted = false) (described : Recorded 1 1 s m.records)
    (oldFits : s.oldLines.length < lineMax) (first : 1 ≤ n) (last : n ≤ s.newLines.length) :
    ∃ r, m.oldLine n = .ok r ∧ (s.origins 1)[n - 1]? = some r := by
  have positive : ¬ (n = 0 ∨ m.deleted = true) := by simp [existing]; omega
  cases found : recorded? m.records n with
  | some r =>
      refine ⟨r, ?_, described.recorded?_sound found first⟩
      rw [oldLine, if_neg positive, found]
  | none =>
      obtain ⟨o, origin, place⟩ := described.shift_inside found first (by omega)
      have inOld : 0 < o ∧ o ≤ lineMax := by
        obtain ⟨_, _, _, hFirst, hLast⟩ :=
          Script.line_of_keeps ((Script.keeps_iff first).mpr origin)
        omega
      refine ⟨some o, ?_, origin⟩
      rw [oldLine, if_neg positive, found]
      have fromShift : (n : Int) - shift n m.records 0 = o := place
      simp only [extrapolate, fromShift]
      rw [if_pos (by omega)]
      rfl

/-- Behind the last line, lines are looked up as if both files went on alike. -/
theorem oldLine_past (existing : m.deleted = false) (described : Recorded 1 1 s m.records)
    (past : s.newLines.length < n) :
    m.oldLine n =
      if n - s.newLines.length + s.oldLines.length ≤ lineMax then
        .ok (some (n - s.newLines.length + s.oldLines.length))
      else .error (.unmapped n) := by
  have positive : ¬ (n = 0 ∨ m.deleted = true) := by simp [existing]; omega
  have place := described.shift_past (n := n) (by omega)
  have fromShift : (n : Int) - shift n m.records 0 =
      (n - s.newLines.length + s.oldLines.length : Nat) := by
    rw [show ((1 : Nat) : Int) - (1 : Nat) = 0 from rfl] at place
    omega
  rw [oldLine, if_neg positive, described.recorded?_past (by omega)]
  simp only [extrapolate, fromShift]
  by_cases inRange : n - s.newLines.length + s.oldLines.length ≤ lineMax
  · rw [if_pos (by omega), if_pos inRange]
    rfl
  · rw [if_neg (by omega), if_neg inRange]
    rfl

/-- **Every line of the new file is mapped to where it comes from**, however the script is
cut into hunks: to nothing if the script adds it, and else to the line that the script
keeps. Lines behind the end of the file are mapped as if both files went on alike. -/
theorem oldLine_of_prints {script : Script} {old new : List (List Char)} {diff : String}
    (turns : script.Turns old new) (oldFits : old.length < lineMax)
    (newFits : new.length < lineMax) (oldLines : ∀ line ∈ old, OneLine line)
    (newLines : ∀ line ∈ new, OneLine line) (prints : Prints script diff) :
    ∃ m, ofText diff = .ok m ∧
      (∀ n, 1 ≤ n → n ≤ new.length →
        (∃ r, m.oldLine n = .ok r) ∧
        (m.oldLine n = .ok none ↔ script.Adds n) ∧
        ∀ i, m.oldLine n = .ok (some i) ↔ script.Keeps i n) ∧
      ∀ n, new.length < n → m.oldLine n =
        if n - new.length + old.length ≤ lineMax then .ok (some (n - new.length + old.length))
        else .error (.unmapped n) := by
  obtain ⟨rfl, rfl⟩ := turns
  obtain ⟨m, read, existing, described⟩ :=
    ofText_of_prints prints oldFits newFits oldLines newLines
  refine ⟨m, read, fun n first last => ?_, fun n past => oldLine_past existing described past⟩
  obtain ⟨r, mapped, origin⟩ := oldLine_inside existing described oldFits first last
  refine ⟨⟨r, mapped⟩, ?_, fun i => ?_⟩
  · rw [mapped, Script.adds_iff first, origin]
    simp
  · rw [mapped, Script.keeps_iff first, origin]
    simp

theorem oldLine_of_prints_zero_context :
    let script : Script := [.keep ['a'], .remove ['-'], .add ['+'], .add ['b']]
    let diff := "--- a/f\n+++ b/f\n@@ -2 +2,2 @@\n--\n++\n+b\n\\ No newline at end of file\n"
    ∃ m, ofText diff = .ok m ∧
      (∀ n, 1 ≤ n → n ≤ 3 →
        (∃ r, m.oldLine n = .ok r) ∧
        (m.oldLine n = .ok none ↔ script.Adds n) ∧
        ∀ i, m.oldLine n = .ok (some i) ↔ script.Keeps i n) ∧
      ∀ n, 3 < n → m.oldLine n =
        if n - 3 + 2 ≤ lineMax then .ok (some (n - 3 + 2)) else .error (.unmapped n) := by
  intro script diff
  have turns : script.Turns [['a'], ['-']] [['a'], ['+'], ['b']] := ⟨rfl, rfl⟩
  have body : PrintsBody [.remove ['-'], .add ['+'], .add ['b']]
      [['-', '-'], ['+', '+'], ['+', 'b'], "\\ No newline at end of file".toList] :=
    .step (List.forall_mem_nil _) (.step (List.forall_mem_nil _)
      (.step (List.forall_mem_singleton.mpr (by decide)) .done))
  have written : Hunk.WrittenAs ⟨2, 1, 2, 2⟩ "@@ -2 +2,2 @@".toList :=
    ⟨[], _, [], .omitted, .written 2, by decide, rfl⟩
  have hunks := @PrintsFrom.hunk 1 1 [['a']] _ [] _ _ _ _ (List.cons_ne_nil _ _) written
    ⟨rfl, rfl, fun _ => rfl, fun _ => rfl, by decide, by decide⟩ body (.done [])
  have preamble : ∀ line ∈ ["--- a/f".toList, "+++ b/f".toList], PreambleLine line := by
    refine List.forall_mem_cons.mpr ⟨⟨by decide, rfl, ?_⟩,
      List.forall_mem_singleton.mpr ⟨by decide, rfl, ?_⟩⟩
    · intro value names
      cases names
    · intro value names
      cases names
      decide
  exact oldLine_of_prints turns (by decide) (by decide) (by decide) (by decide)
    ⟨_, _, preamble, hunks, rfl⟩

end LineMap

end PatchLint.Diff
