import PatchLint.Proofs.Diff.Body

/-!
Lines behind the last hunk of a diff.

In an exact diff the body of every hunk supplies the lines that its header declares. What
follows such a diff is still read: remarks and lines like those of a preamble are passed
over, and every other line counts as one more body line of the last hunk.

* `LineMap.ofText_trailing`: the map of the longer diff, in terms of the shorter one.
* `LineMap.signature_moves_lines`: so the signature at the end of a patch moves the lines
  below the last hunk.
-/

namespace PatchLint.Diff

/-- The lines are hunks whose bodies supply what the headers declare; the last is `h`. -/
inductive ExactHunks : (h : Hunk) → List (List Char) → Prop where
  | first {h : Hunk} {header : List Char} {body : List (List Char)}
      (read : Hunk.ofLine? header = some h) (supplies : Supplies h body) :
      ExactHunks h (header :: body)
  | next {g h : Hunk} {lines body : List (List Char)} {header : List Char}
      (earlier : ExactHunks g lines) (read : Hunk.ofLine? header = some h)
      (supplies : Supplies h body) : ExactHunks h (lines ++ header :: body)

/-- The text is a diff with hunks, each with the lines that it declares; the last is `h`. -/
def Exact (h : Hunk) (diff : String) : Prop :=
  ∃ preamble hunks, (∀ line ∈ preamble, isHunkHeader line = false) ∧ ExactHunks h hunks ∧
    Text.splitLines diff.toList = preamble ++ hunks

def Cursor.behind (h : Hunk) : Cursor :=
  ⟨h.oldStart + h.oldCount, h.newStart + h.newCount, 0, 0⟩

/-! ### The end of the last hunk -/

theorem Hunk.InRange.fits {h : Hunk} (inRange : h.InRange) : (Cursor.ofHunk h).Fits [] :=
  Cursor.fits_nil.mpr ⟨inRange.oldStart, inRange.newStart⟩

namespace Scan

/-- What was read of a diff ends with the hunk. -/
structure EndsWith (s : Scan) (h : Hunk) : Prop where
  cursor : s.cursor = .behind h
  fits : s.cursor.Fits []
  inHunks : s.inHunks = true

/-- Behind a hunk with the lines that it declares the counts are used up. -/
theorem endsWith_of_hunk {h : Hunk} {header : List Char} {body : List (List Char)}
    (read : Hunk.ofLine? header = some h) (supplies : Supplies h body) {s last : Scan}
    (run : (header :: body).foldlM step s = .ok last) : last.EndsWith h := by
  have start := (Hunk.inRange_of_ofLine? read).fits
  rw [foldlM_step_hunk read supplies start, foldlM_body start] at run
  by_cases fits : (Cursor.ofHunk h).Fits (spoken body)
  · rw [if_pos fits] at run
    cases run
    have behind : (Cursor.ofHunk h).after (spoken body) = .behind h := by
      rw [Cursor.after_eq, supplies.old, supplies.new]
      simp [Cursor.ofHunk, Cursor.behind]
    refine ⟨behind, ?_, rfl⟩
    rw [took, behind]
    rw [Cursor.Fits, supplies.old, supplies.new] at fits
    exact Cursor.fits_nil.mpr fits
  · rw [if_neg fits] at run
    cases run

/-- Behind exact hunks, the reader stands at the end of the last one. -/
theorem endsWith_of_exactHunks {h : Hunk} {lines : List (List Char)}
    (hunks : ExactHunks h lines) {s last : Scan} (run : lines.foldlM step s = .ok last) :
    last.EndsWith h := by
  cases hunks with
  | first read supplies => exact endsWith_of_hunk read supplies run
  | @next g h earlier body header _ read supplies =>
      rw [List.foldlM_append] at run
      cases before : earlier.foldlM step s with
      | error fault =>
          rw [before] at run
          cases run
      | ok middle =>
          rw [before] at run
          exact endsWith_of_hunk read supplies run

end Scan

/-! ### What follows -/

namespace LineMap

/-- The map with further body lines behind the hunk `h`. -/
def extended (m : LineMap) (h : Hunk) (lines : List (List Char)) : Except Fault LineMap :=
  if (Cursor.behind h).Fits lines then
    .ok { m with records := m.records ++ (Cursor.behind h).records lines }
  else .error (.lineOverflow lineMax)

/-- Further lines are read where the first ones left off. -/
theorem ofLines_append {lines : List (List Char)} {s : Scan}
    (run : lines.foldlM Scan.step {} = .ok s) (more : List (List Char)) :
    ofLines (lines ++ more) = (more.foldlM Scan.step s).map Scan.map := by
  rw [ofLines, List.foldlM_append, run]
  simp only [bind, Except.bind]
  cases more.foldlM Scan.step s with
  | ok last => rfl
  | error fault => rfl

/-- Reading an exact diff ends with its last hunk. -/
theorem endsWith_of_exact {h : Hunk} {diff : String} (isExact : Exact h diff) {s : Scan}
    (run : (Text.splitLines diff.toList).foldlM Scan.step {} = .ok s) : s.EndsWith h := by
  obtain ⟨preamble, lines, before, hunks, cut⟩ := isExact
  rw [cut, List.foldlM_append, Scan.foldlM_step_preamble rfl rfl before] at run
  exact Scan.endsWith_of_exactHunks hunks run

/-- **Of the lines behind an exact diff**, remarks and lines like those of a preamble change
nothing. Every other line counts as one more body line of the last hunk, unless a line
number passes the greatest one. -/
theorem ofText_trailing {h : Hunk} {diff whole : String} {trailing : List (List Char)}
    (isExact : Exact h diff)
    (follows : Text.splitLines whole.toList = Text.splitLines diff.toList ++ trailing)
    (plain : ∀ line ∈ trailing, isHunkHeader line = false ∧ isFileHeader line = false) :
    (ofText whole = do (← ofText diff).extended h (trailing.filter counted)) ∧
      (trailing.filter counted = [] → ofText whole = ofText diff) := by
  rw [ofText, ofText, follows]
  cases run : (Text.splitLines diff.toList).foldlM Scan.step {} with
  | error fault =>
      have fails : ∀ more, ofLines (Text.splitLines diff.toList ++ more) = .error fault := by
        intro more
        rw [ofLines, List.foldlM_append, run]
        rfl
      have failsAlone := fails []
      rw [List.append_nil] at failsAlone
      rw [fails, failsAlone]
      exact ⟨rfl, fun _ => rfl⟩
  | ok s =>
      have ends := endsWith_of_exact isExact run
      -- All counts are used up, so a trailing line is passed over or counts on.
      have closed : s.cursor.isOpen = false := by rw [ends.cursor]; rfl
      have readAlone : ofLines (Text.splitLines diff.toList) = .ok s.map := by
        rw [ofLines, run]
        rfl
      have readOn : ofLines (Text.splitLines diff.toList ++ trailing) =
          s.map.extended h (trailing.filter counted) := by
        rw [ofLines_append run, Scan.foldlM_step_closed ends.fits closed ends.inHunks
          (fun line mem => (plain line mem).1) (fun line mem => (plain line mem).2),
          Scan.foldlM_body ends.fits, ends.cursor, extended]
        by_cases fits : (Cursor.behind h).Fits (trailing.filter counted)
        · rw [if_pos fits, if_pos fits, Scan.took, ends.cursor]
          rfl
        · rw [if_neg fits, if_neg fits]
          rfl
      rw [readOn, readAlone]
      refine ⟨rfl, fun quiet => ?_⟩
      have fits : (Cursor.behind h).Fits [] := ends.cursor ▸ ends.fits
      rw [quiet, extended, if_pos fits]
      simp [Cursor.records]

theorem exact_one_line :
    Exact ⟨1, 1, 1, 1⟩ "@@ -1 +1 @@\n-a\n+b\n" := by
  refine ⟨[], ["@@ -1 +1 @@".toList, ['-', 'a'], ['+', 'b']], List.forall_mem_nil _, ?_, rfl⟩
  exact .first rfl ⟨by decide, rfl, rfl⟩

theorem ofText_trailing_properties :
    let diff := "@@ -1 +1 @@\n-a\n+b\n"
    let whole := "@@ -1 +1 @@\n-a\n+b\nindex 0\nProperty changes on: f\n"
    let trailing := ["index 0".toList, "Property changes on: f".toList]
    Exact ⟨1, 1, 1, 1⟩ diff ∧
      (ofText whole = do (← ofText diff).extended ⟨1, 1, 1, 1⟩ (trailing.filter counted)) ∧
        (trailing.filter counted = [] → ofText whole = ofText diff) :=
  ⟨exact_one_line, ofText_trailing exact_one_line rfl (by decide)⟩

/-- **The counts do not end a diff**: the signature at the end of a patch is read as a removed
line, and moves the lines below the last hunk. -/
theorem signature_moves_lines :
    ¬ ∀ (h : Hunk) (diff whole : String) (trailing : List (List Char)), Exact h diff →
      Text.splitLines whole.toList = Text.splitLines diff.toList ++ trailing →
      (∀ line ∈ trailing, isHunkHeader line = false ∧ isFileHeader line = false) →
      ∃ m n, ofText diff = .ok m ∧ ofText whole = .ok n ∧
        ∀ line, n.oldLine line = m.oldLine line := by
  intro unmoved
  obtain ⟨m, n, read, readOn, same⟩ := unmoved _ _ "@@ -1 +1 @@\n-a\n+b\n-- \n2.39.0\n"
    ["-- ".toList, "2.39.0".toList] exact_one_line rfl (by decide)
  have alone : ofText "@@ -1 +1 @@\n-a\n+b\n" =
    .ok { records := [.removed 1, .added 1] } := rfl
  have signed : ofText "@@ -1 +1 @@\n-a\n+b\n-- \n2.39.0\n" =
    .ok { records := [.removed 1, .added 1, .removed 2, .kept 3 2] } := rfl
  cases read.symm.trans alone
  cases readOn.symm.trans signed
  -- The second line is the second line, and with the signature the third.
  have moved : (Except.ok (some 3) : Except Fault (Option Nat)) = .ok (some 2) := same 2
  cases moved

end LineMap

end PatchLint.Diff
