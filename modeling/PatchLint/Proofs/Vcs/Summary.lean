import PatchLint.Proofs.Diff.Endings
import PatchLint.Proofs.Text.Names
import PatchLint.Text.Octets
import PatchLint.Vcs.Svn

/-!
The summary of changes, written and read.

Of a change svn writes seven columns, a space and the path. Before the path there are eight octets,
since the columns are of ASCII. Whatever else a summary says is passed over, as long as it does not
look like a change.

* `afterOctets_append`, `afterOctets_eq_none`: what stands behind so many octets.
* `toolLines_ended`: of a line that ends with LF or CR LF, a CR at its end may be lost.
* `summaryPath?_of_written`: what a line of the summary is read as.
* `summaryPaths_printed`: the paths that are read are those of the files that are there.
-/

namespace PatchLint.Text

/-- A line ends with LF or CR LF. A CR before the LF is no part of the line. -/
theorem toolLines_ended {line : List Char} {e : LineEnd} (noFeed : '\n' ∉ line) (feeds : e ≠ .cr)
    (rest : List Char) :
    ∃ seen, toolLines (line ++ (e.text ++ rest)) = seen :: toolLines rest ∧
      (line = seen ∨ line = seen ++ ['\r']) := by
  induction line with
  | nil =>
      refine ⟨[], ?_, .inl rfl⟩
      cases e with
      | lf => simp [LineEnd.text, toolLines]
      | crLf => simp [LineEnd.text, toolLines]
      | cr => exact absurd rfl feeds
  | cons c line ih =>
      rw [List.mem_cons, not_or] at noFeed
      obtain ⟨seen, cut, same⟩ := ih noFeed.2
      by_cases pair : c = '\r' ∧ line = [] ∧ e = .lf
      · obtain ⟨rfl, rfl, rfl⟩ := pair
        refine ⟨[], ?_, .inr rfl⟩
        rw [LineEnd.text, List.cons_append, List.nil_append, List.singleton_append, toolLines]
      · refine ⟨c :: seen, ?_, ?_⟩
        · -- The line does not end here, so the character goes in front of it.
          have single : ∀ after, c = '\r' → line ++ (e.text ++ rest) = '\n' :: after → False := by
            intro after isReturn starts
            cases line with
            | nil =>
                cases e with
                | lf => exact pair ⟨isReturn, rfl, rfl⟩
                | crLf => cases starts
                | cr => exact feeds rfl
            | cons d line =>
                cases (List.cons.inj starts).1
                exact noFeed.2 List.mem_cons_self
          rw [List.cons_append, toolLines.eq_3 c _ single, if_neg (Ne.symm noFeed.1), cut]
          rfl
        · rcases same with rfl | rfl
          · exact .inl rfl
          · exact .inr rfl

end PatchLint.Text

namespace PatchLint.Vcs.Svn

open PatchLint.Text (LineEnd Printable OneLine)

/-! ### Behind the columns -/

/-- How many octets the characters take. -/
def width (s : List Char) : Nat := (Octets.ofText (String.ofList s)).length

@[simp] theorem width_nil : width [] = 0 := rfl

@[simp] theorem width_cons (c : Char) (s : List Char) :
    width (c :: s) = c.utf8Size + width s :=
  Octets.length_ofText_cons c s

theorem width_append (a b : List Char) : width (a ++ b) = width a + width b := by
  induction a with
  | nil => rw [List.nil_append, width_nil, Nat.zero_add]
  | cons c a ih => rw [List.cons_append, width_cons, width_cons, ih, Nat.add_assoc]

/-- Printable ASCII takes one octet a character. -/
theorem width_of_printable {s : List Char} (printable : ∀ c ∈ s, Printable c) :
    width s = s.length := by
  induction s with
  | nil => rfl
  | cons c s ih =>
      rw [List.forall_mem_cons] at printable
      have one : c.utf8Size = 1 :=
        Char.utf8Size_eq_one_iff.mpr (UInt32.le_iff_toNat_le.mpr (Nat.le_succ_of_le printable.1.2))
      rw [width_cons, ih printable.2, one, List.length_cons, Nat.add_comm]

/-- The characters behind a beginning are found by its octets. -/
theorem afterOctets_append (a b : List Char) : afterOctets (width a) (a ++ b) = some b := by
  induction a with
  | nil => rw [width_nil, List.nil_append, afterOctets]
  | cons c a ih =>
      have some_octet := c.utf8Size_pos
      obtain ⟨k, octets⟩ : ∃ k, width (c :: a) = k + 1 :=
        ⟨c.utf8Size + width a - 1, by rw [width_cons]; omega⟩
      rw [octets, List.cons_append, afterOctets, ← octets, width_cons, if_pos (by omega),
        Nat.add_sub_cancel_left, ih]

theorem afterOctets_eq_none {s : List Char} {n : Nat} (short : width s < n) :
    afterOctets n s = none := by
  induction s generalizing n with
  | nil =>
      obtain ⟨n, rfl⟩ := Nat.exists_eq_succ_of_ne_zero (Nat.ne_of_gt short)
      rw [afterOctets]
  | cons c s ih =>
      rw [width_cons] at short
      obtain ⟨n, rfl⟩ := Nat.exists_eq_succ_of_ne_zero (Nat.ne_of_gt (Nat.zero_lt_of_lt short))
      rw [afterOctets]
      split
      · exact ih (by omega)
      · rfl

/-! ### Lines of a summary -/

/-- A line of a summary: a change, as its columns and its path, or whatever else is said. -/
inductive SummaryLine where
  | change (columns path : List Char)
  | other (text : List Char)
  deriving DecidableEq, Repr

namespace SummaryLine

def text : SummaryLine → List Char
  | change columns path => columns ++ ' ' :: path
  | other text => text

def isChange : SummaryLine → Bool
  | change .. => true
  | other _ => false

/-- The path of a file that was added, modified or replaced, with slashes for its backslashes. -/
def path? : SummaryLine → Option String
  | change columns path =>
    if columns.head? ∈ [some 'A', some 'M', some 'R'] then some (String.ofList (Text.slashed path))
    else none
  | other _ => none

/-- A change is written with seven columns of printable ASCII before the space, and with a path
that has no line end and no blank at either end. Any other line is shorter than eight octets, or
blank, or does not begin with the letter of a change after which there is a file. -/
inductive Written : SummaryLine → Prop where
  | change {columns path : List Char} (seven : columns.length = 7)
      (printable : ∀ c ∈ columns, Printable c) (nonempty : path ≠ []) (oneLine : OneLine path)
      (first : ∀ c ∈ path.head?, Text.isBlank c = false)
      (last : ∀ c ∈ path.getLast?, Text.isBlank c = false) : Written (change columns path)
  | short {text : List Char} (noFeed : '\n' ∉ text) (octets : width text < 8) :
      Written (other text)
  | blank {text : List Char} (noFeed : '\n' ∉ text) (blanks : ∀ c ∈ text, Text.isBlank c = true) :
      Written (other text)
  | unmarked {text : List Char} (noFeed : '\n' ∉ text)
      (mark : ∀ c ∈ text.head?, c ∉ ['A', 'M', 'R']) : Written (other text)

theorem Written.noFeed {l : SummaryLine} (written : l.Written) : '\n' ∉ l.text := by
  cases written with
  | change _ printable _ oneLine _ _ =>
      intro mem
      rcases List.mem_append.mp mem with inside | inside
      · exact absurd (printable _ inside) (by decide)
      · rcases List.mem_cons.mp inside with space | inside
        · cases space
        · exact oneLine.1 inside
  | short noFeed _ => exact noFeed
  | blank noFeed _ => exact noFeed
  | unmarked noFeed _ => exact noFeed

end SummaryLine

/-! ### What the lines are read as -/

theorem isPresent_iff {c : Char} : isPresent c = true ↔ c ∈ ['A', 'M', 'R'] := by
  simp [isPresent, or_assoc]

theorem summaryPath?_of_unmarked {line : List Char} (mark : ∀ c ∈ line.head?, c ∉ ['A', 'M', 'R']) :
    summaryPath? line = none := by
  cases line with
  | nil => rfl
  | cons c line => rw [summaryPath?, if_neg (mt isPresent_iff.mp (mark c rfl))]

/-- A line of fewer than eight octets has no path. -/
theorem summaryPath?_of_short {line : List Char} (octets : width line < 8) :
    summaryPath? line = none := by
  cases line with
  | nil => rfl
  | cons c line =>
      rw [summaryPath?, statusWidth, afterOctets_eq_none octets]
      exact ite_self _

/-- The columns and the space take eight octets, so the path stands behind them. -/
theorem summaryPath?_change {columns path : List Char} (seven : columns.length = 7)
    (printable : ∀ c ∈ columns, Printable c) (nonempty : path ≠ [])
    (first : ∀ c ∈ path.head?, Text.isBlank c = false)
    (last : ∀ c ∈ path.getLast?, Text.isBlank c = false) :
    summaryPath? (columns ++ ' ' :: path) = (SummaryLine.change columns path).path? := by
  have octets : width (columns ++ [' ']) = statusWidth := by
    rw [width_append, width_of_printable printable, seven]
    rfl
  have behind : afterOctets statusWidth (columns ++ ' ' :: path) = some path := by
    have whole : columns ++ ' ' :: path = (columns ++ [' ']) ++ path := by simp
    rw [← octets, whole]
    exact afterOctets_append _ path
  obtain ⟨status, more, rfl⟩ := List.exists_cons_of_length_eq_add_one seven
  obtain ⟨c, path, rfl⟩ := List.exists_cons_of_ne_nil nonempty
  have mark :
      (status :: more).head? ∈ [some 'A', some 'M', some 'R'] ↔ isPresent status = true := by
    simp [isPresent_iff]
  rw [List.cons_append] at behind ⊢
  simp only [summaryPath?, SummaryLine.path?, mark, behind, Option.map_some,
    Text.trim_eq_self first last]

/-- **A line of the summary is read as its path**, with or without a CR that the line end took. -/
theorem summaryPath?_of_written {l : SummaryLine} (written : l.Written) {seen : List Char}
    (same : l.text = seen ∨ l.text = seen ++ ['\r']) : summaryPath? seen = l.path? := by
  -- A CR at the end may belong to the line end or to the line.
  have isPrefix : seen <+: l.text := by
    rcases same with same | same
    · exact same ▸ List.prefix_refl _
    · exact ⟨['\r'], same.symm⟩
  have head : ∀ c ∈ seen.head?, c ∈ l.text.head? := by
    intro c first
    obtain ⟨rest, rfl⟩ := List.head?_eq_some_iff.mp first
    obtain ⟨more, whole⟩ := isPrefix
    rw [← whole]
    rfl
  cases written with
  | change seven printable nonempty oneLine first last =>
      rcases same with same | same
      · rw [← same]
        exact summaryPath?_change seven printable nonempty first last
      · have ends := congrArg List.getLast? same
        rw [SummaryLine.text, List.getLast?_append, List.getLast?_cons_of_ne_nil nonempty,
          List.getLast?_eq_some_getLast nonempty, Option.some_or, List.getLast?_concat] at ends
        exact absurd (Option.some.inj ends ▸ List.getLast_mem nonempty) oneLine.2
  | short noFeed octets =>
      obtain ⟨more, whole⟩ := isPrefix
      rw [SummaryLine.text] at whole
      rw [← whole, width_append] at octets
      exact summaryPath?_of_short (Nat.lt_of_le_of_lt (Nat.le_add_right ..) octets)
  | blank noFeed blanks =>
      refine summaryPath?_of_unmarked fun c first mark => ?_
      have blank := blanks c (List.mem_of_mem_head? (head c first))
      simp only [List.mem_cons, List.not_mem_nil, or_false] at mark
      rcases mark with rfl | rfl | rfl
      all_goals cases blank
  | unmarked noFeed mark => exact summaryPath?_of_unmarked fun c first => mark c (head c first)

/-! ### Summaries -/

def summaryText (lines : List (SummaryLine × LineEnd)) : String :=
  String.ofList (Text.joined (lines.map fun l => (l.1.text, some l.2)))

theorem summaryPaths_summaryText {lines : List (SummaryLine × LineEnd)}
    (written : ∀ l ∈ lines, l.1.Written) (feeds : ∀ l ∈ lines, l.2 ≠ .cr) :
    summaryPaths (summaryText lines) = lines.filterMap fun l => l.1.path? := by
  rw [summaryPaths, summaryText, String.toList_ofList]
  induction lines with
  | nil => rfl
  | cons l lines ih =>
      rw [List.forall_mem_cons] at written feeds
      obtain ⟨seen, cut, same⟩ := Text.toolLines_ended written.1.noFeed feeds.1
        (Text.joined (lines.map fun l => (l.1.text, some l.2)))
      rw [List.map_cons, Text.joined_ended, cut, List.filterMap_cons, List.filterMap_cons,
        summaryPath?_of_written written.1 same, ih written.2 feeds.2]

/-- **The paths of the files that are there**, in their order. What else is said between the
changes does not matter. -/
theorem summaryPaths_printed {lines : List (SummaryLine × LineEnd)}
    (written : ∀ l ∈ lines, l.1.Written) (feeds : ∀ l ∈ lines, l.2 ≠ .cr) :
    summaryPaths (summaryText lines) = lines.filterMap (fun l => l.1.path?) ∧
      summaryPaths (summaryText lines) =
        summaryPaths (summaryText (lines.filter fun l => l.1.isChange)) := by
  have all := summaryPaths_summaryText written feeds
  have changes := @summaryPaths_summaryText (lines.filter fun l => l.1.isChange)
    (fun l mem => written l (List.mem_filter.mp mem).1)
    (fun l mem => feeds l (List.mem_filter.mp mem).1)
  refine ⟨all, all.trans (Eq.trans ?_ changes.symm)⟩
  rw [List.filterMap_filter]
  refine congrArg (lines.filterMap ·) (funext fun l => ?_)
  cases l.1 with
  | change columns path => rfl
  | other text => rfl

/-! A summary of two files that are there and two changes that leave none to look at, with a remark
that is no change, a short line that looks like one and a blank line in between. -/

namespace Summarized

def lines : List (SummaryLine × LineEnd) :=
  [(.change "M      ".toList "src\\a b.js".toList, .lf), (.other "Mé".toList, .lf),
    (.change "A  +   ".toList "é.js".toList, .crLf), (.other "日本語 A".toList, .crLf),
    (.change " M     ".toList "prop.js".toList, .lf), (.other " \r".toList, .lf),
    (.change "D      ".toList "gone.js".toList, .lf)]

theorem shown {o : Option Char} {c : Char} (same : o = some c) (visible : Text.isBlank c = false) :
    ∀ d ∈ o, Text.isBlank d = false := by
  rintro d mem
  cases same.symm.trans mem
  exact visible

theorem written : ∀ l ∈ lines, l.1.Written := by
  simp only [lines, List.forall_mem_cons]
  refine ⟨?_, ?_, ?_, ?_, ?_, ?_, ?_, List.forall_mem_nil _⟩
  · exact .change rfl (by decide) (by decide) (by decide) (shown rfl rfl) (shown rfl rfl)
  · exact .short (by decide) (by decide)
  · exact .change rfl (by decide) (by decide) (by decide) (shown rfl rfl) (shown rfl rfl)
  · refine .unmarked (by decide) fun c first => ?_
    cases first
    decide
  · exact .change rfl (by decide) (by decide) (by decide) (shown rfl rfl) (shown rfl rfl)
  · refine .blank (by decide) fun c mem => ?_
    rcases List.mem_cons.mp mem with rfl | last
    · rfl
    · cases List.mem_singleton.mp last
      rfl
  · exact .change rfl (by decide) (by decide) (by decide) (shown rfl rfl) (shown rfl rfl)

end Summarized

theorem summaryPaths_printed_mixed :
    summaryPaths ("M       src\\a b.js\nMé\nA  +    é.js\r\n日本語 A\r\n M      prop.js\n \r\n" ++
      "D       gone.js\n") = ["src/a b.js", "é.js"] :=
  (summaryPaths_printed Summarized.written (by decide)).1

end PatchLint.Vcs.Svn
