import PatchLint.Diff.Header
import PatchLint.Proofs.Text.Digits
import PatchLint.Proofs.Text.Lines

/-!
Hunk headers, written and read.

`Hunk.IsHeader` is the form `@@ -old,count +new,count @@` of a header, where a count of one
may be left out, numbers may have zeros in front and anything may follow.
`Hunk.WrittenAs` is the narrower form in which headers are written, in which numbers have no
such zeros and the line no end inside.

* `Hunk.ofLine?_eq_some`: the headers that are read are those of this form, each as its hunk.
* `Hunk.ofLine?_of_written`: so a header that is written is read.
* `Hunk.inRange_of_ofLine?`: no numbers are read that are too great.
-/

namespace PatchLint.Diff

open PatchLint.Text (Digits Undigited OneLine)

/-- The ways to write a count: behind a comma or, if it is one, not at all. -/
inductive CountText : Nat → List Char → Prop where
  | written (n : Nat) : CountText n (',' :: Nat.toDigits 10 n)
  | omitted : CountText 1 []

namespace Hunk

/-- The line is a header that announces the hunk. -/
def WrittenAs (h : Hunk) (line : List Char) : Prop :=
  ∃ oldCount newCount heading, CountText h.oldCount oldCount ∧
    CountText h.newCount newCount ∧ OneLine heading ∧
    line = ['@', '@', ' ', '-'] ++ (Nat.toDigits 10 h.oldStart ++ (oldCount ++ ([' ', '+'] ++
      (Nat.toDigits 10 h.newStart ++ (newCount ++ ([' ', '@', '@'] ++ heading))))))

/-- The numbers of the hunk are line numbers. -/
structure InRange (h : Hunk) : Prop where
  oldStart : h.oldStart ≤ lineMax
  oldCount : h.oldCount ≤ lineMax
  newStart : h.newStart ≤ lineMax
  newCount : h.newCount ≤ lineMax

end Hunk

/-! ### The form of a header -/

/-- The digits write the number, with or without zeros in front, and it is a line number. -/
structure Numeral (n : Nat) (ds : List Char) : Prop where
  digits : Digits ds
  nonempty : ds ≠ []
  value : Text.digitsValue ds = n
  inRange : n ≤ lineMax

/-- The text of a count: its digits behind a comma or, if it is one, nothing. -/
inductive CountNumeral : Nat → List Char → Prop where
  | written {n : Nat} {ds : List Char} (numeral : Numeral n ds) : CountNumeral n (',' :: ds)
  | omitted : CountNumeral 1 []

/-- The line is a header of the hunk. -/
def Hunk.IsHeader (h : Hunk) (line : List Char) : Prop :=
  ∃ oldStart oldCount newStart newCount heading,
    Numeral h.oldStart oldStart ∧ CountNumeral h.oldCount oldCount ∧
    Numeral h.newStart newStart ∧ CountNumeral h.newCount newCount ∧
    line = ['@', '@', ' ', '-'] ++ (oldStart ++ (oldCount ++ ([' ', '+'] ++
      (newStart ++ (newCount ++ ([' ', '@', '@'] ++ heading))))))

/-! ### The parts of a header -/

theorem after?_append (start s : List Char) : after? start (start ++ s) = some s := by
  simp [after?]

/-- What comes after `start` is the rest of a text that begins with it. -/
theorem after?_eq_some {start s rest : List Char} :
    after? start s = some rest ↔ s = start ++ rest := by
  unfold after?
  constructor
  · intro read
    split at read
    · rename_i begins
      obtain ⟨rest', rfl⟩ := List.isPrefixOf_iff_prefix.mp begins
      simpa using read
    · cases read
  · rintro rfl
    exact after?_append start rest

/-- A numeral is read to its end, if no digit comes behind it. -/
theorem number?_append {n : Nat} {ds rest : List Char} (numeral : Numeral n ds)
    (stops : Undigited rest) : number? (ds ++ rest) = some (n, rest) := by
  rw [number?, Text.takeWhile_digits numeral.digits stops,
    Text.dropWhile_digits numeral.digits stops]
  cases ds with
  | nil => exact absurd rfl numeral.nonempty
  | cons d ds => simp [numeral.value, numeral.inRange]

/-- Whatever is read as a number stands there as a numeral. -/
theorem exists_numeral_of_number? {n : Nat} {s rest : List Char}
    (read : number? s = some (n, rest)) : ∃ ds, Numeral n ds ∧ s = ds ++ rest := by
  unfold number? at read
  split at read
  · cases read
  · rename_i digits some_digit
    simp only [Option.ite_none_right_eq_some, Option.some.injEq, Prod.mk.injEq] at read
    obtain ⟨inRange, rfl, rfl⟩ := read
    refine ⟨s.takeWhile Char.isDigit, ⟨?_, some_digit, rfl, inRange⟩,
      List.takeWhile_append_dropWhile.symm⟩
    intro c mem
    exact List.all_eq_true.mp List.all_takeWhile c mem

/-- The text of a count is read up to the blank behind it. -/
theorem count?_append {n : Nat} {text : List Char} (numeral : CountNumeral n text)
    (rest : List Char) : count? (text ++ ' ' :: rest) = some (n, ' ' :: rest) := by
  cases numeral with
  | written numeral => exact number?_append numeral (Text.undigited_cons rfl)
  | omitted => rfl

/-- Whatever is read as a count stands there as one, or nothing does. -/
theorem exists_numeral_of_count? {n : Nat} {s rest : List Char}
    (read : count? s = some (n, rest)) : ∃ text, CountNumeral n text ∧ s = text ++ rest := by
  unfold count? at read
  split at read
  · obtain ⟨ds, numeral, rfl⟩ := exists_numeral_of_number? read
    exact ⟨',' :: ds, .written numeral, rfl⟩
  · cases read
    exact ⟨[], .omitted, rfl⟩

theorem CountNumeral.inRange {n : Nat} {text : List Char} (numeral : CountNumeral n text) :
    n ≤ lineMax := by
  cases numeral with
  | written numeral => exact numeral.inRange
  | omitted => decide

/-- A start is followed by its count or by a blank, and so by no digit. -/
theorem CountNumeral.undigited {n : Nat} {text : List Char} (numeral : CountNumeral n text)
    (rest : List Char) : Undigited (text ++ ' ' :: rest) := by
  cases numeral with
  | written numeral => exact Text.undigited_cons rfl
  | omitted => exact Text.undigited_cons rfl

theorem numeral_toDigits {n : Nat} (inRange : n ≤ lineMax) : Numeral n (Nat.toDigits 10 n) :=
  ⟨Text.digits_toDigits n, Nat.toDigits_ne_nil, Text.digitsValue_toDigits n, inRange⟩

/-- A count that is written within range is the text of a count. -/
theorem CountText.numeral {n : Nat} {text : List Char} (written : CountText n text)
    (inRange : n ≤ lineMax) : CountNumeral n text := by
  cases written with
  | written => exact .written (numeral_toDigits inRange)
  | omitted => exact .omitted

/-- A start is followed by its count or by a blank, and so by no digit. -/
theorem CountText.undigited {n : Nat} {text : List Char} (written : CountText n text)
    (rest : List Char) : Undigited (text ++ ' ' :: rest) := by
  cases written with
  | written => exact Text.undigited_cons rfl
  | omitted => exact Text.undigited_cons rfl

/-- The digits of a number are read as this number, if as one. -/
theorem eq_of_number?_toDigits {n m : Nat} {rest more : List Char} (stops : Undigited rest)
    (read : number? (Nat.toDigits 10 n ++ rest) = some (m, more)) :
    m = n ∧ more = rest ∧ n ≤ lineMax := by
  have digits := Text.digits_toDigits n
  rw [number?, Text.takeWhile_digits digits stops, Text.dropWhile_digits digits stops] at read
  split at read
  · cases read
  · simp only [Text.digitsValue_toDigits, Option.ite_none_right_eq_some, Option.some.injEq,
      Prod.mk.injEq] at read
    obtain ⟨inRange, rfl, rfl⟩ := read
    exact ⟨rfl, rfl, inRange⟩

theorem eq_of_count?_text {n m : Nat} {text rest more : List Char} (written : CountText n text)
    (read : count? (text ++ ' ' :: rest) = some (m, more)) :
    m = n ∧ more = ' ' :: rest ∧ n ≤ lineMax := by
  cases written with
  | written => exact eq_of_number?_toDigits (Text.undigited_cons rfl) read
  | omitted =>
      cases read
      exact ⟨rfl, rfl, by decide⟩

theorem oneLine_of_digits {ds : List Char} (digits : Digits ds) : OneLine ds :=
  ⟨fun mem => absurd (digits _ mem) (by decide), fun mem => absurd (digits _ mem) (by decide)⟩

theorem oneLine_of_text {n : Nat} {text : List Char} (written : CountText n text) :
    OneLine text := by
  cases written with
  | written =>
      exact Text.oneLine_cons.mpr ⟨by decide, oneLine_of_digits (Text.digits_toDigits _)⟩
  | omitted => decide

/-! ### Headers -/

/-- No line is a header and a remark. -/
theorem isRemark_of_isHunkHeader {line : List Char} (header : isHunkHeader line = true) :
    isRemark line = false := by
  obtain ⟨rest, rfl⟩ := List.isPrefixOf_iff_prefix.mp header
  rfl

theorem isHunkHeader_of_isRemark {line : List Char} (remark : isRemark line = true) :
    isHunkHeader line = false := by
  obtain ⟨rest, rfl⟩ := List.isPrefixOf_iff_prefix.mp remark
  rfl

namespace Hunk

/-- **A header is read as its hunk, and nothing else is read.** -/
theorem ofLine?_eq_some {h : Hunk} {line : List Char} :
    ofLine? line = some h ↔ h.IsHeader line := by
  constructor
  · intro read
    simp only [ofLine?, Option.bind_eq_bind, Option.bind_eq_some_iff, Prod.exists,
      Option.pure_def, Option.some.injEq] at read
    obtain ⟨_, begins, _, _, oldStart, _, _, oldCount, _, plus, _, _, newStart, _, _, newCount,
      _, marks, rfl⟩ := read
    obtain ⟨oldDigits, oldNumeral, rfl⟩ := exists_numeral_of_number? oldStart
    obtain ⟨oldText, oldCounted, rfl⟩ := exists_numeral_of_count? oldCount
    obtain rfl := after?_eq_some.mp plus
    obtain ⟨newDigits, newNumeral, rfl⟩ := exists_numeral_of_number? newStart
    obtain ⟨newText, newCounted, rfl⟩ := exists_numeral_of_count? newCount
    obtain rfl := after?_eq_some.mp marks
    exact ⟨oldDigits, oldText, newDigits, newText, _, oldNumeral, oldCounted, newNumeral,
      newCounted, after?_eq_some.mp begins⟩
  · rintro ⟨oldStart, oldCount, newStart, newCount, heading, oldNumeral, oldCounted, newNumeral,
      newCounted, rfl⟩
    have begins := after?_append ['@', '@', ' ', '-']
    have plus := after?_append [' ', '+']
    have marks := after?_append [' ', '@', '@']
    have oldRead := fun s => number?_append oldNumeral (oldCounted.undigited s)
    have newRead := fun s => number?_append newNumeral (newCounted.undigited s)
    simp only [List.cons_append, List.nil_append] at begins plus marks
    simp only [ofLine?, List.cons_append, List.nil_append, begins, oldRead,
      count?_append oldCounted, plus, newRead, count?_append newCounted, marks,
      Option.bind_eq_bind, Option.bind_some]
    rfl

/-- **A header that is written is read as the hunk that it announces.** -/
theorem ofLine?_of_written {h : Hunk} {line : List Char} (written : h.WrittenAs line)
    (inRange : h.InRange) : ofLine? line = some h := by
  obtain ⟨oldCount, newCount, heading, oldText, newText, -, rfl⟩ := written
  exact ofLine?_eq_some.mpr ⟨_, oldCount, _, newCount, heading,
    numeral_toDigits inRange.oldStart, oldText.numeral inRange.oldCount,
    numeral_toDigits inRange.newStart, newText.numeral inRange.newCount, rfl⟩

/-- A header that is written announces no other hunk, and none with numbers that are too
great. -/
theorem eq_of_written {g h : Hunk} {line : List Char} (written : h.WrittenAs line)
    (read : ofLine? line = some g) : g = h ∧ h.InRange := by
  obtain ⟨oldText, newText, heading, oldWritten, newWritten, -, rfl⟩ := written
  simp only [ofLine?, Option.bind_eq_bind, Option.bind_eq_some_iff, Prod.exists,
    Option.pure_def, Option.some.injEq] at read
  obtain ⟨_, begins, _, _, oldStart, _, _, oldCount, _, plus, _, _, newStart, _, _, newCount,
    _, -, rfl⟩ := read
  obtain rfl := List.append_cancel_left (after?_eq_some.mp begins)
  obtain ⟨rfl, rfl, oldStartFits⟩ :=
    eq_of_number?_toDigits (oldWritten.undigited _) oldStart
  obtain ⟨rfl, rfl, oldCountFits⟩ := eq_of_count?_text oldWritten oldCount
  obtain rfl := List.append_cancel_left (after?_eq_some.mp plus)
  obtain ⟨rfl, rfl, newStartFits⟩ :=
    eq_of_number?_toDigits (newWritten.undigited _) newStart
  obtain ⟨rfl, rfl, newCountFits⟩ := eq_of_count?_text newWritten newCount
  exact ⟨rfl, oldStartFits, oldCountFits, newStartFits, newCountFits⟩

/-- A header that can be read begins like one. -/
theorem isHunkHeader_of_ofLine? {h : Hunk} {line : List Char} (read : ofLine? line = some h) :
    isHunkHeader line = true := by
  obtain ⟨_, _, _, _, _, -, -, -, -, rfl⟩ := ofLine?_eq_some.mp read
  rfl

/-- The numbers of a header that can be read are line numbers. -/
theorem inRange_of_ofLine? {h : Hunk} {line : List Char} (read : ofLine? line = some h) :
    h.InRange := by
  obtain ⟨_, _, _, _, _, oldStart, oldCount, newStart, newCount, -⟩ := ofLine?_eq_some.mp read
  exact ⟨oldStart.inRange, oldCount.inRange, newStart.inRange, newCount.inRange⟩

/-- A header that is written out is taken for one. -/
theorem isHunkHeader_of_written {h : Hunk} {line : List Char} (written : h.WrittenAs line) :
    isHunkHeader line = true := by
  obtain ⟨_, _, _, -, -, -, rfl⟩ := written
  rfl

theorem oneLine_of_written {h : Hunk} {line : List Char} (written : h.WrittenAs line) :
    OneLine line := by
  obtain ⟨oldCount, newCount, heading, oldText, newText, inLine, rfl⟩ := written
  simp only [Text.oneLine_append]
  exact ⟨by decide, oneLine_of_digits (Text.digits_toDigits _), oneLine_of_text oldText,
    by decide, oneLine_of_digits (Text.digits_toDigits _), oneLine_of_text newText,
    by decide, inLine⟩

end Hunk

end PatchLint.Diff
