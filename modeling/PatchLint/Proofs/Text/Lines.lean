import PatchLint.Text.Basic

/-!
Cutting a text into lines undoes ending each line with LF.

* `splitLines_unlines`: the lines of a text that was put together from lines are these
  lines. A line may hold anything but a line end, so a text has one such reading.
* `splitLines_append`: behind an LF, a text is cut apart from what follows.
* `continue_splitLines`: what follows any other text changes its last line only.
* `toolLines_eq_splitLines`: the two ways to cut a text differ only where there is a CR.
-/

namespace PatchLint.Text

def OneLine (line : List Char) : Prop := '\n' ∉ line ∧ '\r' ∉ line

instance (line : List Char) : Decidable (OneLine line) := by
  unfold OneLine; infer_instance

/-- The text of lines, each ended by LF. -/
def unlines (lines : List (List Char)) : List Char :=
  lines.flatMap (· ++ ['\n'])

@[simp] theorem unlines_nil : unlines [] = [] := rfl

theorem unlines_cons (line : List Char) (lines : List (List Char)) :
    unlines (line :: lines) = line ++ '\n' :: unlines lines := by
  simp [unlines]

theorem oneLine_cons {c : Char} {line : List Char} :
    OneLine (c :: line) ↔ (c ≠ '\n' ∧ c ≠ '\r') ∧ OneLine line := by
  simp only [OneLine, List.mem_cons, not_or, ne_eq]
  constructor
  · rintro ⟨⟨hn, restN⟩, hr, restR⟩
    exact ⟨⟨Ne.symm hn, Ne.symm hr⟩, restN, restR⟩
  · rintro ⟨⟨hn, hr⟩, restN, restR⟩
    exact ⟨⟨Ne.symm hn, restN⟩, Ne.symm hr, restR⟩

theorem oneLine_append {a b : List Char} : OneLine (a ++ b) ↔ OneLine a ∧ OneLine b := by
  simp only [OneLine, List.mem_append, not_or]
  exact ⟨fun ⟨⟨a, b⟩, c, d⟩ => ⟨⟨a, c⟩, b, d⟩, fun ⟨⟨a, c⟩, b, d⟩ => ⟨⟨a, b⟩, c, d⟩⟩

/-- A character that ends no line goes to the first line of the rest. -/
theorem splitLines_cons {c : Char} (inLine : c ≠ '\n' ∧ c ≠ '\r') (rest : List Char) :
    splitLines (c :: rest) = consLine c (splitLines rest) := by
  rw [splitLines]
  · simp [inLine.1, inLine.2]
  · intro rest' hc
    exact absurd hc inLine.2

theorem splitLines_newline (rest : List Char) :
    splitLines ('\n' :: rest) = [] :: splitLines rest := by
  rw [splitLines]
  · simp
  · intro rest' hc
    simp at hc

/-- A line and its end are cut off in front of the other lines. -/
theorem splitLines_append_newline {line : List Char} (oneLine : OneLine line)
    (rest : List Char) : splitLines (line ++ '\n' :: rest) = line :: splitLines rest := by
  induction line with
  | nil => exact splitLines_newline rest
  | cons c line ih =>
      obtain ⟨inLine, oneLine⟩ := oneLine_cons.mp oneLine
      rw [List.cons_append, splitLines_cons inLine, ih oneLine]
      rfl

/-- **A text that was put together from lines is cut into these lines.** -/
theorem splitLines_unlines {lines : List (List Char)}
    (oneLine : ∀ line ∈ lines, OneLine line) : splitLines (unlines lines) = lines := by
  induction lines with
  | nil => rfl
  | cons line lines ih =>
      have first := oneLine line List.mem_cons_self
      have others := ih fun l hl => oneLine l (List.mem_cons_of_mem _ hl)
      rw [unlines_cons, splitLines_append_newline first, others]

/-! ### Texts one after the other -/

/-- A CR and an LF that comes right behind it end one line. -/
def IsPair (c : Char) (rest : List Char) : Prop := c = '\r' ∧ rest.head? = some '\n'

/-- A line end is cut off that is no part of a pair. -/
theorem splitLines_lineEnd {c : Char} {rest : List Char} (ends : c = '\n' ∨ c = '\r')
    (single : ¬ IsPair c rest) : splitLines (c :: rest) = [] :: splitLines rest := by
  rw [splitLines]
  · rw [if_pos ends]
  · rintro rest' rfl rfl
    exact single ⟨rfl, rfl⟩

theorem splitLines_ne_nil {s : List Char} (some_text : s ≠ []) : splitLines s ≠ [] := by
  fun_cases splitLines s with
  | case1 => exact absurd rfl some_text
  | case2 rest => exact List.cons_ne_nil _ _
  | case3 c rest => exact List.cons_ne_nil _ _
  | case4 c rest =>
      cases splitLines rest with
      | nil => exact List.cons_ne_nil _ _
      | cons line lines => exact List.cons_ne_nil _ _

/-- **A text that ends with LF is cut apart from what follows.** -/
theorem splitLines_append {s : List Char} (ended : s.getLast? = some '\n') (t : List Char) :
    splitLines (s ++ t) = splitLines s ++ splitLines t := by
  -- On the lines of the first text; where it ends, its last LF closes the line.
  fun_induction splitLines s with
  | case1 => cases ended
  | case2 rest ih =>
      cases rest with
      | nil => simp [splitLines]
      | cons d rest =>
          rw [List.getLast?_cons_cons, List.getLast?_cons_cons] at ended
          rw [List.cons_append, List.cons_append, splitLines, ih ended, List.cons_append]
  | case3 c rest single ends ih =>
      cases rest with
      | nil =>
          cases ended
          exact splitLines_newline t
      | cons d rest =>
          rw [List.getLast?_cons_cons] at ended
          have apart : ¬ IsPair c (d :: rest ++ t) := by
            rintro ⟨isReturn, isFeed⟩
            cases Option.some.inj isFeed
            exact single rest isReturn rfl
          rw [List.cons_append, splitLines_lineEnd ends apart, ih ended, List.cons_append]
  | case4 c rest _ inLine ih =>
      cases rest with
      | nil =>
          cases ended
          exact absurd (.inl rfl) inLine
      | cons d rest =>
          rw [List.getLast?_cons_cons] at ended
          obtain ⟨line, lines, cut⟩ :=
            List.exists_cons_of_ne_nil (splitLines_ne_nil (List.cons_ne_nil d rest))
          rw [List.cons_append, splitLines_cons (not_or.mp inLine), ih ended, cut]
          rfl

/-- The lines come first among others, where the last of them may go on. -/
inductive Continue : (lines others : List (List Char)) → Prop where
  | none {others : List (List Char)} : Continue [] others
  | last {line more : List Char} {others : List (List Char)} :
      Continue [line] ((line ++ more) :: others)
  | first {line : List Char} {lines others : List (List Char)} (rest : Continue lines others) :
      Continue (line :: lines) (line :: others)

theorem Continue.consLine {lines others : List (List Char)} (continues : Continue lines others)
    (c : Char) : Continue (consLine c lines) (consLine c others) := by
  cases continues with
  | none =>
      cases others with
      | nil => exact .first .none
      | cons line others => exact @Continue.last [c] line others
  | @last line more others => exact @Continue.last (c :: line) more others
  | first rest => exact .first rest

/-- **A text that goes on has its lines first**, and only the last one may go on. -/
theorem continue_splitLines (s t : List Char) : Continue (splitLines s) (splitLines (s ++ t)) := by
  fun_induction splitLines s with
  | case1 => exact .none
  | case2 rest ih =>
      rw [List.cons_append, List.cons_append, splitLines]
      exact .first ih
  | case3 c rest single ends ih =>
      by_cases pair : IsPair c (rest ++ t)
      · obtain ⟨rfl, isFeed⟩ := pair
        cases rest with
        | nil =>
            obtain ⟨t, rfl⟩ := List.head?_eq_some_iff.mp isFeed
            rw [List.cons_append, List.nil_append, splitLines]
            exact .first .none
        | cons d rest =>
            cases Option.some.inj isFeed
            exact (single rest rfl rfl).elim
      · rw [List.cons_append, splitLines_lineEnd ends pair]
        exact .first ih
  | case4 c rest _ inLine ih =>
      rw [List.cons_append, splitLines_cons (not_or.mp inLine)]
      exact ih.consLine c

/-- A line comes behind the same lines when the text goes on, and begins the same. -/
theorem Continue.exists_line {lines before after others : List (List Char)} {line : List Char}
    (continues : Continue lines others) (split : lines = before ++ line :: after) :
    ∃ more rest, others = before ++ (line ++ more) :: rest := by
  induction continues generalizing before with
  | none => simp at split
  | @last start more others =>
      cases before with
      | nil =>
          obtain ⟨rfl, -⟩ := List.cons.inj split
          exact ⟨more, others, rfl⟩
      | cons first before => simp at split
  | @first start lines others _ ih =>
      cases before with
      | nil =>
          obtain ⟨rfl, -⟩ := List.cons.inj split
          exact ⟨[], others, by simp⟩
      | cons first before =>
          obtain ⟨rfl, inner⟩ := List.cons.inj split
          obtain ⟨more, rest, rfl⟩ := ih inner
          exact ⟨more, rest, rfl⟩

/-! ### Listings of tools -/

/-- **A text without CR has the same lines in both readings.** -/
theorem toolLines_eq_splitLines {s : List Char} (noReturn : '\r' ∉ s) :
    toolLines s = splitLines s := by
  induction s with
  | nil => rfl
  | cons c s ih =>
      rw [List.mem_cons, not_or] at noReturn
      obtain ⟨other, noReturn⟩ := noReturn
      have single : ∀ rest, c = '\r' → s = '\n' :: rest → False := fun _ same _ => other same.symm
      rw [toolLines.eq_3 c s single, splitLines.eq_3 c s single, ih noReturn]
      by_cases feed : c = '\n'
      · rw [if_pos feed, if_pos (.inl feed)]
      · have inLine : ¬ (c = '\n' ∨ c = '\r') := not_or.mpr ⟨feed, fun same => other same.symm⟩
        rw [if_neg feed, if_neg inLine]

/-- A listing is cut into the lines that it was put together from. -/
theorem toolLines_unlines {lines : List (List Char)} (oneLine : ∀ line ∈ lines, OneLine line) :
    toolLines (unlines lines) = lines := by
  have noReturn : '\r' ∉ unlines lines := by
    intro mem
    obtain ⟨line, inside, mem⟩ := List.mem_flatMap.mp mem
    rcases List.mem_append.mp mem with mem | mem
    · exact (oneLine line inside).2 mem
    · simp at mem
  rw [toolLines_eq_splitLines noReturn, splitLines_unlines oneLine]

end PatchLint.Text
