import PatchLint.Lint.Input
import PatchLint.Proofs.Text.Digits
import PatchLint.Proofs.Text.Lines
import PatchLint.Report

/-!
The lines of the report for editors.

A text has at most one reading as lines that end with LF (`HasLines.unique`), and as many lines as
it has LFs. The report prints paths, texts and sources as they are, and these may hold an LF.

* `toList_compactLine`: what is printed about a message.
* `compact_lines`: one line for each message, and one more for each LF inside; so the lines are
  what is printed about the messages exactly if there is no LF inside.
* `not_compact_lines`: a message that takes two lines.
-/

namespace PatchLint.Text

/-- The text consists of these lines, each up to the LF that ends it. -/
def HasLines (s : List Char) (lines : List (List Char)) : Prop :=
  unlines lines = s ∧ ∀ line ∈ lines, '\n' ∉ line

theorem count_unlines {lines : List (List Char)} (free : ∀ line ∈ lines, '\n' ∉ line) :
    (unlines lines).count '\n' = lines.length := by
  induction lines with
  | nil => rfl
  | cons line lines ih =>
      rw [List.forall_mem_cons] at free
      rw [unlines_cons, List.count_append, List.count_eq_zero_of_not_mem free.1,
        List.count_cons_self, ih free.2, List.length_cons, Nat.zero_add]

theorem unlines_eq_intercalate (lines : List (List Char)) :
    unlines lines = ['\n'].intercalate (lines ++ [[]]) := by
  induction lines with
  | nil => rfl
  | cons line lines ih =>
      obtain ⟨next, others, more⟩ : ∃ next others, lines ++ [[]] = next :: others :=
        List.exists_cons_of_ne_nil (List.append_ne_nil_of_right_ne_nil _ (by simp))
      rw [unlines_cons, ih, List.cons_append, more, List.intercalate_cons_cons, List.append_assoc]
      rfl

namespace HasLines

variable {s t : List Char} {lines others : List (List Char)}

theorem nil : HasLines [] [] := ⟨rfl, List.forall_mem_nil _⟩

theorem append (first : HasLines s lines) (second : HasLines t others) :
    HasLines (s ++ t) (lines ++ others) := by
  obtain ⟨rfl, free⟩ := first
  obtain ⟨rfl, free'⟩ := second
  exact ⟨List.flatMap_append, List.forall_mem_append.mpr ⟨free, free'⟩⟩

/-- There are as many lines as LFs. -/
theorem length_eq (has : HasLines s lines) : lines.length = s.count '\n' := by
  obtain ⟨rfl, free⟩ := has
  exact (count_unlines free).symm

/-- A text has one reading as lines. -/
theorem unique (has : HasLines s lines) (has' : HasLines s others) : lines = others := by
  have split : ∀ {lines}, HasLines s lines → s.splitOn '\n' = lines ++ [[]] := by
    rintro lines ⟨rfl, free⟩
    rw [unlines_eq_intercalate]
    refine List.splitOn_intercalate '\n' ?_ (List.append_ne_nil_of_right_ne_nil _ (by simp))
    exact List.forall_mem_append.mpr ⟨free, by simp⟩
  exact List.append_cancel_right ((split has).symm.trans (split has'))

/-- Behind any text, an LF ends a line. -/
theorem exists_of_newline (s : List Char) : ∃ lines, HasLines (s ++ ['\n']) lines := by
  induction s with
  | nil => exact ⟨[[]], rfl, by simp⟩
  | cons c s ih =>
      obtain ⟨lines, whole, free⟩ := ih
      by_cases ends : c = '\n'
      · exact ⟨[] :: lines, by rw [unlines_cons, whole, ends]; rfl, by simpa using free⟩
      · cases lines with
        | nil => exact absurd whole.symm (List.append_ne_nil_of_right_ne_nil _ (by simp))
        | cons line lines =>
            rw [List.forall_mem_cons] at free
            refine ⟨(c :: line) :: lines, ?_, ?_⟩
            · rw [unlines_cons, List.cons_append, ← unlines_cons, whole, List.cons_append]
            · simpa [Ne.symm ends] using free

end HasLines

end PatchLint.Text

namespace PatchLint.Report

open PatchLint.Lint (Message Messages)
open PatchLint.Text (HasLines)

/-! ### What is printed about a message -/

/-- What a linter says in words about a message: the path, the text and the source, if they are
there. -/
def words (m : Message) : List String := m.path.toList ++ m.text.toList ++ m.source.toList

/-- `path:line:col: type: message`, and ` [source]` if there is a source. A line or a column that
is not known is 0, and a path that is not known is `<unknown>`. -/
def lineOf (m : Message) : List Char :=
  (":".intercalate [m.path.getD "<unknown>", Text.decimal (m.line.getD 0),
    Text.decimal (m.column.getD 0)] ++ ": " ++ m.severity.word ++ ": " ++ m.text.getD "" ++
    m.source.elim "" (" [" ++ · ++ "]")).toList

theorem anchor_getD (m : Message) : m.anchor.getD 0 = m.line.getD 0 := by
  unfold Message.anchor
  cases m.line with
  | none => rfl
  | some line =>
      rcases Nat.eq_zero_or_pos line with rfl | positive
      · rfl
      · simp [Option.filter, positive]

/-- A line of the compact report has its parts in this order. -/
theorem toList_compactLine (m : Message) : (compactLine m).toList = lineOf m := by
  unfold compactLine lineOf
  rw [anchor_getD]
  cases m.source with
  | none => simp [pathOf, unknownPath, String.append_assoc]
  | some source => simp [pathOf, unknownPath, String.append_assoc]

theorem count_decimal (n : Nat) : (Text.decimal n).toList.count '\n' = 0 := by
  refine List.count_eq_zero.mpr fun mem => ?_
  rw [Text.decimal, String.toList_ofList] at mem
  exact absurd (Text.digits_toDigits n _ mem) (by decide)

/-- The LFs in a line are those in the words of the linter. -/
theorem count_lineOf (m : Message) :
    (lineOf m).count '\n' = (String.join (words m)).toList.count '\n' := by
  have severity : m.severity.word.toList.count '\n' = 0 := by cases m.severity <;> decide
  unfold lineOf words
  cases m.path <;> cases m.text <;> cases m.source <;>
    simp [String.intercalate_cons_cons, count_decimal, severity]

/-- It is one line exactly if no words in it break it. -/
theorem newline_notMem_lineOf {m : Message} :
    '\n' ∉ lineOf m ↔ ∀ s ∈ words m, '\n' ∉ s.toList := by
  rw [← List.count_eq_zero, count_lineOf, List.count_eq_zero, String.toList_join, List.mem_flatMap]
  exact ⟨fun none s mem inside => none ⟨s, mem, inside⟩,
    fun none ⟨s, mem, inside⟩ => none s mem inside⟩

/-! ### The report -/

theorem toList_compact (ms : Messages) : (compact ms).toList = Text.unlines (ms.map lineOf) := by
  rw [compact, String.toList_join, Text.unlines, List.flatMap_map, List.flatMap_map]
  refine congrArg (ms.flatMap ·) (funext fun m => ?_)
  rw [String.toList_append, toList_compactLine]
  rfl

/-- Each message has a line of its own, and one more for each LF in its words. -/
theorem count_compact (ms : Messages) : (compact ms).toList.count '\n' =
    ms.length + (String.join (ms.flatMap words)).toList.count '\n' := by
  rw [toList_compact]
  induction ms with
  | nil => rfl
  | cons m ms ih =>
      rw [List.map_cons, Text.unlines_cons, List.count_append, List.count_cons_self, ih,
        count_lineOf, List.length_cons, List.flatMap_cons, String.join_append, String.toList_append,
        List.count_append]
      omega

theorem exists_hasLines_compact (ms : Messages) : ∃ lines, HasLines (compact ms).toList lines := by
  rw [toList_compact]
  induction ms with
  | nil => exact ⟨[], .nil⟩
  | cons m ms ih =>
      obtain ⟨first, ofMessage⟩ := HasLines.exists_of_newline (lineOf m)
      obtain ⟨others, ofOthers⟩ := ih
      have both := ofMessage.append ofOthers
      rw [List.append_assoc, List.singleton_append, ← Text.unlines_cons] at both
      exact ⟨first ++ others, both⟩

/-- **One line for each message**, exactly if no path, text or source has an LF inside. In any case
the report has lines in one way, and each LF inside makes one more of them. -/
theorem compact_lines (ms : Messages) :
    (compact ms).toList = Text.unlines (ms.map lineOf) ∧
      (HasLines (compact ms).toList (ms.map lineOf) ↔
        ∀ m ∈ ms, ∀ s ∈ words m, '\n' ∉ s.toList) ∧
      ∃ lines, (∀ others, HasLines (compact ms).toList others ↔ others = lines) ∧
        lines.length = ms.length + (String.join (ms.flatMap words)).toList.count '\n' := by
  refine ⟨toList_compact ms, ?_, ?_⟩
  · rw [HasLines, toList_compact, and_iff_right rfl, List.forall_mem_map]
    exact forall₂_congr fun m _ => newline_notMem_lineOf
  · obtain ⟨lines, has⟩ := exists_hasLines_compact ms
    refine ⟨lines, fun others => ⟨fun has' => has'.unique has, ?_⟩, ?_⟩
    · rintro rfl
      exact has
    · exact has.length_eq.trans (count_compact ms)

/-- **A text with an LF inside takes two lines**, and the first of them ends in the middle. -/
theorem not_compact_lines :
    ¬ ∀ (output : String) (ms : Messages), Messages.ofOutput output = .ok ms →
      HasLines (compact ms).toList (ms.map lineOf) := by
  intro oneEach
  have read : Messages.ofOutput "[\x7b\"type\":\"ERROR\",\"message\":\"a\\nb\"\x7d]" =
    .ok [⟨none, none, .error, [("message", .str "a\nb")]⟩] := rfl
  have said := (oneEach _ _ read).2 _ List.mem_cons_self
  exact absurd said (by decide)

end PatchLint.Report
