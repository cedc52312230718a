import PatchLint.Proofs.Diff.Blocks

/-!
Diffs of more than one file.

When the hunks of a diff have all lines that their headers declare, nothing behind the last of
them is taken for a body line any more that could be the header of a file. So a diff of another
file that comes behind is found out, whatever the body lines look like and whatever stands
between the two.

* `Blocks.exists_block_append`: lines that follow belong to the last block, up to the next one.
* `LineMap.malformed_of_second_file`: diffs of several files cannot be read as one.
-/

namespace PatchLint.Diff

/-- The text is a diff with hunks and ends with LF, and each block supplies what its header
declares, or more. -/
structure Complete (diff : String) : Prop where
  ended : diff.toList.getLast? = some '\n'
  hunks : LineMap.blocks diff ≠ []
  supplied : ∀ b ∈ LineMap.blocks diff, ∀ h : Hunk, h.IsHeader b.header → h.isSupplied b.body = true

/-- A line that opens the part of a file stands in front of all hunks of the text. -/
def OpensFile (diff : String) : Prop :=
  ∃ before line after, Text.splitLines diff.toList = before ++ line :: after ∧
    (∀ l ∈ before, isHunkHeader l = false) ∧ isFileHeader line = true

/-! ### Blocks of lines that follow each other -/

namespace Blocks

/-- A header opens a block, with the lines up to the next header. -/
theorem cut_cons_header {line : List Char} (opens : isHunkHeader line = true)
    (rest : List (List Char)) :
    (cut (line :: rest)).blocks = ⟨line, (cut rest).front, opens, (cut rest).plain⟩ ::
      (cut rest).blocks := by
  rw [cut, dif_pos opens]

/-- Any other line comes in front of all blocks. -/
theorem cut_cons_plain {line : List Char} (plain : isHunkHeader line = false)
    (rest : List (List Char)) :
    (cut (line :: rest)).front = line :: (cut rest).front ∧
      (cut (line :: rest)).blocks = (cut rest).blocks := by
  rw [cut, dif_neg (Bool.eq_false_iff.mp plain)]
  exact ⟨rfl, rfl⟩

/-- Lines without a header stand in front of the first block. -/
theorem front_append {lines : List (List Char)} (plain : ∀ line ∈ lines, isHunkHeader line = false)
    (more : List (List Char)) : (cut (lines ++ more)).front = lines ++ (cut more).front := by
  induction lines with
  | nil => rfl
  | cons line lines ih =>
      rw [List.cons_append, (cut_cons_plain (plain line List.mem_cons_self) _).1,
        ih fun l mem => plain l (List.mem_cons_of_mem _ mem), List.cons_append]

/-- Where there is no block, all lines are in front. -/
theorem front_of_blocks_nil {lines : List (List Char)} (none : (cut lines).blocks = []) :
    (cut lines).front = lines := by
  have joined := (cut lines).joined
  rwa [none, List.flatMap_nil, List.append_nil] at joined

/-- **Lines that follow belong to the last block**, up to the next header. -/
theorem exists_block_append {lines : List (List Char)} {b : Block}
    (last : (cut lines).blocks.getLast? = some b) (more : List (List Char)) :
    ∃ b' ∈ (cut (lines ++ more)).blocks,
      b'.header = b.header ∧ b'.body = b.body ++ (cut more).front := by
  induction lines with
  | nil => cases last
  | cons line lines ih =>
      cases opens : isHunkHeader line with
      | false =>
          rw [(cut_cons_plain opens lines).2] at last
          rw [List.cons_append, (cut_cons_plain opens _).2]
          exact ih last
      | true =>
          rw [cut_cons_header opens] at last
          rw [List.cons_append, cut_cons_header opens]
          -- The last block takes in what comes in front of the next header.
          cases others : (cut lines).blocks with
          | nil =>
              rw [others] at last
              cases last
              have all := front_of_blocks_nil others
              have plain := (cut lines).plain
              rw [all] at plain
              refine ⟨_, List.mem_cons_self, rfl, ?_⟩
              show (cut (lines ++ more)).front = (cut lines).front ++ (cut more).front
              rw [front_append plain, all]
          | cons next later =>
              rw [others, List.getLast?_cons_cons, ← others] at last
              obtain ⟨b', mem, same⟩ := ih last
              exact ⟨b', List.mem_cons_of_mem _ mem, same⟩

end Blocks

/-! ### The header of another file -/

/-- Lines that supply what the hunk declares do so with more lines behind them. -/
theorem Hunk.isSupplied_append (h : Hunk) {lines : List (List Char)}
    (supplied : h.isSupplied lines = true) (more : List (List Char)) :
    h.isSupplied (lines ++ more) = true := by
  simp only [isSupplied, oldCount_append, newCount_append, Bool.and_eq_true,
    decide_eq_true_eq] at supplied ⊢
  omega

/-- A line that opens the part of a file is no remark and announces no hunk. -/
theorem of_isFileHeader {line : List Char} (opens : isFileHeader line = true) :
    isRemark line = false ∧ isHunkHeader line = false := by
  obtain ⟨start, mem, begins⟩ := List.any_eq_true.mp opens
  obtain ⟨rest, rfl⟩ := List.isPrefixOf_iff_prefix.mp begins
  simp only [fileHeaders, List.mem_cons, List.not_mem_nil, or_false] at mem
  rcases mem with rfl | rfl | rfl
  · exact ⟨rfl, rfl⟩
  · exact ⟨rfl, rfl⟩
  · exact ⟨rfl, rfl⟩

/-- A line that opens the part of a file does so, however it goes on. -/
theorem isFileHeader_append {line : List Char} (opens : isFileHeader line = true)
    (more : List Char) : isFileHeader (line ++ more) = true := by
  obtain ⟨start, mem, begins⟩ := List.any_eq_true.mp opens
  refine List.any_eq_true.mpr ⟨start, mem, List.isPrefixOf_iff_prefix.mpr ?_⟩
  exact (List.isPrefixOf_iff_prefix.mp begins).trans (List.prefix_append line more)

/-- A text that opens the part of a file does so, whatever follows it. -/
theorem OpensFile.append {diff : String} (opens : OpensFile diff) (more : String) :
    OpensFile (diff ++ more) := by
  obtain ⟨before, line, after, cut, plain, header⟩ := opens
  obtain ⟨end_, others, joined⟩ :=
    (Text.continue_splitLines diff.toList more.toList).exists_line cut
  exact ⟨before, line ++ end_, others, by rw [String.toList_append, joined], plain,
    isFileHeader_append header end_⟩

namespace LineMap

theorem spoken_append (lines more : List (List Char)) :
    spoken (lines ++ more) = spoken lines ++ spoken more := List.filter_append ..

/-- A block of a diff that opens the part of another file behind what its header declares. -/
theorem exists_faulty {first second : String} (complete : Complete first)
    (opens : OpensFile second) : ∃ b ∈ blocks (first ++ second), b.Faulty := by
  obtain ⟨before, line, after, cut, plain, header⟩ := opens
  obtain ⟨heard, noHeader⟩ := of_isFileHeader header
  have lines : spoken (Text.splitLines (first ++ second).toList) =
      spoken (Text.splitLines first.toList) ++ spoken (before ++ line :: after) := by
    rw [String.toList_append, Text.splitLines_append complete.ended, cut, spoken_append]
  have front : (Blocks.cut (spoken (before ++ line :: after))).front =
      spoken before ++ line :: (Blocks.cut (spoken after)).front := by
    have opened : spoken (line :: after) = line :: spoken after := by simp [spoken, heard]
    have plainFront : ∀ l ∈ spoken before, isHunkHeader l = false := fun l mem =>
      plain l (List.mem_filter.mp mem).1
    rw [spoken_append, opened, Blocks.front_append plainFront,
      (Blocks.cut_cons_plain noHeader _).1]
  have last := List.getLast?_eq_some_getLast complete.hunks
  obtain ⟨b, mem, sameHeader, body⟩ :=
    Blocks.exists_block_append last (spoken (before ++ line :: after))
  rw [← lines] at mem
  refine ⟨b, mem, ?_⟩
  by_cases read : ∃ h : Hunk, h.IsHeader b.header
  · obtain ⟨h, isHeader⟩ := read
    have supplied :=
      complete.supplied _ (List.getLast_mem complete.hunks) h (sameHeader ▸ isHeader)
    rw [front, ← List.append_assoc] at body
    exact .secondFile isHeader body (h.isSupplied_append supplied _) header
  · exact .badHeader fun h isHeader => read ⟨h, isHeader⟩

/-- **Diffs of several files cannot be read as one**, if the first of them has hunks with all
lines that their headers declare. -/
theorem malformed_of_second_file {first second : String} (complete : Complete first)
    (opens : OpensFile second) :
    Malformed (ofText (first ++ second)) ∧
      ∀ more : List String, Malformed (ofText (first ++ second ++ String.join more)) := by
  have malformed : ∀ {later : String}, OpensFile later → Malformed (ofText (first ++ later)) := by
    intro later opens
    rcases malformed_or_describes (first ++ later) with ⟨-, fails⟩ | ⟨sound, -⟩
    · exact fails
    · obtain ⟨b, mem, faulty⟩ := exists_faulty complete opens
      exact absurd faulty (sound b mem)
  refine ⟨malformed opens, fun more => ?_⟩
  rw [String.append_assoc]
  exact malformed (opens.append (String.join more))

theorem malformed_of_second_file_header_like_body :
    let first := "+++ b/x\n@@ -1,2 +1,2 @@\n k\n--- x\n+++ x\n\\ No newline at end of file\n"
    let second := "index 0\ndiff --git a/y b/y\n@@ -1 +1 @@\n-a\n+b\n"
    Complete first ∧ OpensFile second ∧ Malformed (ofText (first ++ second)) ∧
      ∀ more : List String, Malformed (ofText (first ++ second ++ String.join more)) := by
  intro first second
  have supplied : ∀ b ∈ blocks first, ∀ h ∈ Hunk.ofLine? b.header, h.isSupplied b.body = true := by
    decide
  have complete : Complete first := ⟨by decide +kernel, by decide, fun b mem h isHeader =>
    supplied b mem h (Hunk.ofLine?_eq_some.mpr isHeader)⟩
  have opens : OpensFile second := ⟨["index 0".toList], "diff --git a/y b/y".toList,
    ["@@ -1 +1 @@".toList, "-a".toList, "+b".toList], by decide +kernel,
    List.forall_mem_singleton.mpr rfl, rfl⟩
  exact ⟨complete, opens, malformed_of_second_file complete opens⟩

end LineMap

end PatchLint.Diff
