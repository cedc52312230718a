import PatchLint.Proofs.Diff.Header

/-!
The grammar of a hunk header.

A header is four numbers between marks, `@@ -start,count +start,count @@`, with anything behind
them. `Layout` holds the texts in these places, whatever they are, and `Layout.WellFormed` says
that they are numbers. The marks keep the places apart, so a line has at most one layout.

* `Hunk.isHeader_iff`: a header is the line of a layout of numbers.
* `Layout.eq_of_spaced_eq_line`: no other texts, and no other blanks, give the same line.
* `Hunk.ofLine?_print`: a hunk is printed as a line that is read as this hunk.
* `Hunk.ofLine?_spaced`: a line laid out like a header is read only if it is one.
* `Hunk.ofLine?_grammar`: all of these together.
-/

namespace PatchLint.Diff

open PatchLint.Text (Digits Undigited)

/-- The number that digits write. -/
def valueOf (text : List Char) : Nat := Nat.ofDigitChars 10 text 0

/-- The text is decimal digits, zeros in front or not, of a number below `2 ^ 32`. A sign is no
digit, and neither is a digit of another script. -/
structure IsNumber (text : List Char) : Prop where
  digits : Digits text
  nonempty : text ≠ []
  fits : valueOf text < 0x100000000

def countText : Option (List Char) → List Char
  | none => []
  | some text => ',' :: text

/-- The number that a count stands for: one, if it is left out. -/
def countOf (count : Option (List Char)) : Nat := (count.map valueOf).getD 1

def blanks (n : Nat) : List Char := List.replicate n ' '

/-- The texts in the places of a header, and what follows its marks. -/
@[ext] structure Layout where
  oldStart : List Char
  oldCount : Option (List Char)
  newStart : List Char
  newCount : Option (List Char)
  heading : List Char

namespace Layout

def line (l : Layout) : List Char :=
  ['@', '@', ' ', '-'] ++ (l.oldStart ++ (countText l.oldCount ++ ([' ', '+'] ++
    (l.newStart ++ (countText l.newCount ++ ([' ', '@', '@'] ++ l.heading))))))

/-- The line of the texts with other numbers of blanks in front of `-`, `+` and the last mark. -/
def spaced (l : Layout) (beforeOld beforeNew beforeEnd : Nat) : List Char :=
  ['@', '@'] ++ (blanks beforeOld ++ '-' :: (l.oldStart ++ (countText l.oldCount ++
    (blanks beforeNew ++ '+' :: (l.newStart ++ (countText l.newCount ++
      (blanks beforeEnd ++ '@' :: '@' :: l.heading)))))))

def hunk (l : Layout) : Hunk :=
  ⟨valueOf l.oldStart, countOf l.oldCount, valueOf l.newStart, countOf l.newCount⟩

/-- The texts are numbers. -/
structure WellFormed (l : Layout) : Prop where
  oldStart : IsNumber l.oldStart
  oldCount : ∀ text ∈ l.oldCount, IsNumber text
  newStart : IsNumber l.newStart
  newCount : ∀ text ∈ l.newCount, IsNumber text

/-- The texts keep to their places: none goes on behind a blank, and no start behind a comma. -/
structure InPlace (l : Layout) : Prop where
  oldStart : ',' ∉ l.oldStart ∧ ' ' ∉ l.oldStart
  oldCount : ∀ text ∈ l.oldCount, ' ' ∉ text
  newStart : ',' ∉ l.newStart ∧ ' ' ∉ l.newStart
  newCount : ∀ text ∈ l.newCount, ' ' ∉ text

theorem spaced_one (l : Layout) : l.spaced 1 1 1 = l.line := rfl

end Layout

/-- The text of a count in print. A count of one may be left out. -/
def printedCount (short : Bool) (count : Nat) : Option (List Char) :=
  if short ∧ count = 1 then none else some (Nat.toDigits 10 count)

/-- The texts of a header in print, in which either count may be short. -/
def Hunk.print (h : Hunk) (shortOld shortNew : Bool) (heading : List Char) : Layout where
  oldStart := Nat.toDigits 10 h.oldStart
  oldCount := printedCount shortOld h.oldCount
  newStart := Nat.toDigits 10 h.newStart
  newCount := printedCount shortNew h.newCount
  heading := heading

/-! ### Numbers -/

/-- A numeral of `n` is a number whose value is `n`. -/
theorem numeral_iff {n : Nat} {text : List Char} :
    Numeral n text ↔ IsNumber text ∧ valueOf text = n := by
  constructor
  · rintro ⟨digits, nonempty, value, inRange⟩
    rw [Text.digitsValue_eq_ofDigitChars] at value
    have fits : valueOf text < 0x100000000 := by
      rw [valueOf, value]
      exact Nat.lt_succ_of_le inRange
    exact ⟨⟨digits, nonempty, fits⟩, value⟩
  · rintro ⟨⟨digits, nonempty, fits⟩, rfl⟩
    exact ⟨digits, nonempty, Text.digitsValue_eq_ofDigitChars text, Nat.le_of_lt_succ fits⟩

/-- The text of a count is that of a number behind its comma or nothing, and stands for its value.
-/
theorem countNumeral_iff {n : Nat} {text : List Char} :
    CountNumeral n text ↔
      ∃ count, (∀ t ∈ count, IsNumber t) ∧ countText count = text ∧ countOf count = n := by
  constructor
  · rintro (numeral | _)
    · obtain ⟨number, value⟩ := numeral_iff.mp numeral
      exact ⟨some _, fun t mem => Option.mem_some.mp mem ▸ number, rfl, value⟩
    · exact ⟨none, nofun, rfl, rfl⟩
  · rintro ⟨count, numbers, rfl, rfl⟩
    cases count with
    | none => exact .omitted
    | some text => exact .written (numeral_iff.mpr ⟨numbers text rfl, rfl⟩)

/-- Nothing but digits stands in a number. -/
theorem IsNumber.notMem {text : List Char} (number : IsNumber text) {c : Char}
    (other : c.isDigit = false) : c ∉ text := by
  intro mem
  rw [number.digits c mem] at other
  cases other

theorem isNumber_toDigits {n : Nat} (inRange : n ≤ lineMax) : IsNumber (Nat.toDigits 10 n) :=
  (numeral_iff.mp (numeral_toDigits inRange)).1

theorem valueOf_toDigits (n : Nat) : valueOf (Nat.toDigits 10 n) = n :=
  Nat.ofDigitChars_toDigits (by decide) (by decide)

/-- A printed count is a number, if it is not left out. -/
theorem isNumber_of_printedCount {short : Bool} {n : Nat} (inRange : n ≤ lineMax) :
    ∀ text ∈ printedCount short n, IsNumber text := by
  intro text mem
  unfold printedCount at mem
  split at mem
  · cases mem
  · cases mem
    exact isNumber_toDigits inRange

/-- Short or not, a printed count stands for the count. -/
theorem countOf_printedCount (short : Bool) (n : Nat) : countOf (printedCount short n) = n := by
  unfold printedCount
  split
  · rename_i one
    exact one.2.symm
  · exact valueOf_toDigits n

/-! ### One way to take a header apart

Both sides of an equation between two lines are cut at the same place: where the digits of the one
end, the text of the other ends as well. -/

section

variable {mark : Char} {rest more : List Char}

/-- The marks that blanks stand in front of. -/
def IsMark (c : Char) : Prop := c = '-' ∨ c = '+' ∨ c = '@'

theorem IsMark.isDigit (isMark : IsMark mark) : mark.isDigit = false := by
  rcases isMark with rfl | rfl | rfl <;> rfl

theorem IsMark.ne_blank (isMark : IsMark mark) : mark ≠ ' ' := by
  rcases isMark with rfl | rfl | rfl <;> decide

theorem IsMark.ne_comma (isMark : IsMark mark) : mark ≠ ',' := by
  rcases isMark with rfl | rfl | rfl <;> decide

/-- A mark is no blank, so blanks up to it can be cut in one way only. -/
theorem eq_of_blanks {n : Nat} (isMark : IsMark mark)
    (same : ' ' :: mark :: rest = blanks n ++ mark :: more) : n = 1 ∧ rest = more := by
  match n, same with
  | 0, same => exact absurd (List.cons.inj same).1.symm isMark.ne_blank
  | 1, same => exact ⟨rfl, (List.cons.inj (List.cons.inj same).2).2⟩
  | n + 2, same => exact absurd (List.cons.inj (List.cons.inj same).2).1 isMark.ne_blank

/-- Blanks and a mark do not go on with a number. -/
theorem undigited_blanks {n : Nat} (isMark : IsMark mark) :
    Undigited (blanks n ++ mark :: more) := by
  cases n with
  | zero => exact Text.undigited_cons isMark.isDigit
  | succ n => exact Text.undigited_cons rfl

theorem undigited_countText {count : Option (List Char)} (undigited : Undigited more) :
    Undigited (countText count ++ more) := by
  cases count with
  | none => exact undigited
  | some text => exact Text.undigited_cons rfl

/-- What follows a start begins with a comma or a blank. -/
theorem notMem_of_head? {count : Option (List Char)} {text : List Char}
    (inPlace : ',' ∉ text ∧ ' ' ∉ text) :
    ∀ c ∈ (countText count ++ ' ' :: rest).head?, c ∉ text := by
  intro c head
  cases count with
  | none =>
      cases head
      exact inPlace.2
  | some _ =>
      cases head
      exact inPlace.1

variable {count count' : Option (List Char)} {n : Nat}

/-- What is cut behind a start is the same: the count, the one blank in front of the mark, and the
rest. -/
theorem eq_of_count (isMark : IsMark mark) (numbers : ∀ text ∈ count, IsNumber text)
    (inPlace : ∀ text ∈ count', ' ' ∉ text)
    (same : countText count ++ ' ' :: mark :: rest =
      countText count' ++ (blanks n ++ mark :: more)) :
    count = count' ∧ n = 1 ∧ rest = more := by
  -- A comma is neither a blank nor a mark, so it tells a count from none.
  match count, count', same with
  | none, none, same => exact ⟨rfl, eq_of_blanks isMark same⟩
  | none, some text, same => exact absurd (List.cons.inj same).1 (by decide)
  | some text, none, same =>
      match n, same with
      | 0, same => exact absurd (List.cons.inj same).1.symm isMark.ne_comma
      | n + 1, same => exact absurd (List.cons.inj same).1 (by decide)
  | some text, some text', same =>
      have stops : ∀ c ∈ (' ' :: mark :: rest).head?, c ∉ text' := by
        rintro _ ⟨⟩
        exact inPlace text' rfl
      obtain ⟨rfl, behind⟩ := Text.eq_of_digits (numbers text rfl).digits stops
        (undigited_blanks isMark) (List.cons.inj same).2
      exact ⟨rfl, eq_of_blanks isMark behind⟩

/-- A start and its count, with the blank and the mark behind them. -/
theorem eq_of_range {start start' : List Char} (isMark : IsMark mark) (number : IsNumber start)
    (numbers : ∀ text ∈ count, IsNumber text) (startInPlace : ',' ∉ start' ∧ ' ' ∉ start')
    (inPlace : ∀ text ∈ count', ' ' ∉ text)
    (same : start ++ (countText count ++ ' ' :: mark :: rest) =
      start' ++ (countText count' ++ (blanks n ++ mark :: more))) :
    start = start' ∧ count = count' ∧ n = 1 ∧ rest = more := by
  obtain ⟨starts, same⟩ := Text.eq_of_digits number.digits (notMem_of_head? startInPlace)
    (undigited_countText (undigited_blanks isMark)) same
  exact ⟨starts, eq_of_count isMark numbers inPlace same⟩

end

namespace Layout

variable {l l' : Layout}

/-- Numbers have neither blanks nor commas in them, so they keep to their places. -/
theorem WellFormed.inPlace (formed : l.WellFormed) : l.InPlace where
  oldStart := ⟨formed.oldStart.notMem rfl, formed.oldStart.notMem rfl⟩
  oldCount := fun text mem => (formed.oldCount text mem).notMem rfl
  newStart := ⟨formed.newStart.notMem rfl, formed.newStart.notMem rfl⟩
  newCount := fun text mem => (formed.newCount text mem).notMem rfl

/-- **Only a header looks like one**: texts that keep to their places and give the line of a
header, with any number of blanks between, are the texts of this header, one blank each. -/
theorem eq_of_spaced_eq_line {a b c : Nat} (formed : l.WellFormed) (inPlace : l'.InPlace)
    (same : l'.spaced a b c = l.line) : l' = l ∧ a = 1 ∧ b = 1 ∧ c = 1 := by
  -- Place after place from the left, since each ends where the next one begins.
  simp only [spaced, line, List.cons_append, List.nil_append, List.cons.injEq, true_and] at same
  obtain ⟨rfl, old⟩ := eq_of_blanks (.inl rfl) same.symm
  obtain ⟨oldStart, oldCount, rfl, new⟩ := eq_of_range (.inr (.inl rfl)) formed.oldStart
    formed.oldCount inPlace.oldStart inPlace.oldCount old
  obtain ⟨newStart, newCount, rfl, last⟩ := eq_of_range (.inr (.inr rfl)) formed.newStart
    formed.newCount inPlace.newStart inPlace.newCount new
  have heading := (List.cons.inj last).2
  exact ⟨Layout.ext oldStart.symm oldCount.symm newStart.symm newCount.symm heading.symm,
    rfl, rfl, rfl⟩

end Layout

/-! ### Reading and printing -/

namespace Hunk

/-- The headers of a hunk are the lines of the well-formed layouts that announce it. -/
theorem isHeader_iff {h : Hunk} {line : List Char} :
    h.IsHeader line ↔ ∃ l : Layout, l.WellFormed ∧ l.line = line ∧ l.hunk = h := by
  constructor
  · rintro ⟨oldStart, _, newStart, _, heading, oldNumeral, oldCounted, newNumeral, newCounted, rfl⟩
    obtain ⟨oldNumber, oldValue⟩ := numeral_iff.mp oldNumeral
    obtain ⟨oldCount, oldNumbers, rfl, oldCountValue⟩ := countNumeral_iff.mp oldCounted
    obtain ⟨newNumber, newValue⟩ := numeral_iff.mp newNumeral
    obtain ⟨newCount, newNumbers, rfl, newCountValue⟩ := countNumeral_iff.mp newCounted
    refine ⟨⟨oldStart, oldCount, newStart, newCount, heading⟩,
      ⟨oldNumber, oldNumbers, newNumber, newNumbers⟩, rfl, ?_⟩
    rw [Layout.hunk, oldValue, oldCountValue, newValue, newCountValue]
  · rintro ⟨l, formed, rfl, rfl⟩
    exact ⟨l.oldStart, countText l.oldCount, l.newStart, countText l.newCount, l.heading,
      numeral_iff.mpr ⟨formed.oldStart, rfl⟩, countNumeral_iff.mpr ⟨_, formed.oldCount, rfl, rfl⟩,
      numeral_iff.mpr ⟨formed.newStart, rfl⟩, countNumeral_iff.mpr ⟨_, formed.newCount, rfl, rfl⟩,
      rfl⟩

/-- A line is read if and only if it can be taken apart into numbers. -/
theorem ofLine?_eq_some_iff {h : Hunk} {line : List Char} :
    ofLine? line = some h ↔ ∃ l : Layout, l.WellFormed ∧ l.line = line ∧ l.hunk = h :=
  ofLine?_eq_some.trans isHeader_iff

section

variable {h : Hunk} {shortOld shortNew : Bool} {heading : List Char}

/-- What is printed is well formed. -/
theorem wellFormed_print (inRange : h.InRange) :
    (h.print shortOld shortNew heading).WellFormed where
  oldStart := isNumber_toDigits inRange.oldStart
  oldCount := isNumber_of_printedCount inRange.oldCount
  newStart := isNumber_toDigits inRange.newStart
  newCount := isNumber_of_printedCount inRange.newCount

/-- It announces the hunk that was printed. -/
theorem hunk_print : (h.print shortOld shortNew heading).hunk = h := by
  simp only [Layout.hunk, print, valueOf_toDigits, countOf_printedCount]

/-- **A hunk is printed as a line that is read as this hunk.** -/
theorem ofLine?_print (inRange : h.InRange) :
    ofLine? (h.print shortOld shortNew heading).line = some h :=
  ofLine?_eq_some_iff.mpr ⟨_, wellFormed_print inRange, rfl, hunk_print⟩

end

/-- **A line laid out like a header is read only if it is one**: one blank in each place, and in
the places of the numbers nothing but numbers. -/
theorem ofLine?_spaced {l : Layout} (inPlace : l.InPlace) (a b c : Nat) :
    ofLine? (l.spaced a b c) = none ↔ ¬ (l.WellFormed ∧ a = 1 ∧ b = 1 ∧ c = 1) := by
  rw [Option.eq_none_iff_forall_not_mem]
  constructor
  · rintro unread ⟨formed, rfl, rfl, rfl⟩
    exact unread l.hunk (ofLine?_eq_some_iff.mpr ⟨l, formed, l.spaced_one.symm, rfl⟩)
  · intro other h read
    obtain ⟨l', formed, same, -⟩ := ofLine?_eq_some_iff.mp read
    obtain ⟨rfl, one⟩ := Layout.eq_of_spaced_eq_line formed inPlace same.symm
    exact other ⟨formed, one⟩

/-- **The lines that are read as hunk headers** are those that can be taken apart into numbers
between the marks, each in one way. A hunk that is printed is read again. Where a number has a
sign, a digit of another script or too great a value, or where blanks are missing, nothing is
read. -/
theorem ofLine?_grammar :
    (∀ (line : List Char) (h : Hunk), ofLine? line = some h ↔
      ∃ l : Layout, l.WellFormed ∧ l.line = line ∧ l.hunk = h) ∧
    (∀ l l' : Layout, l.WellFormed → l'.WellFormed → l.line = l'.line → l = l') ∧
    (∀ (h : Hunk) (shortOld shortNew : Bool) (heading : List Char), h.InRange →
      ofLine? (h.print shortOld shortNew heading).line = some h) ∧
    ∀ l : Layout, l.InPlace → ∀ a b c : Nat,
      ofLine? (l.spaced a b c) = none ↔ ¬ (l.WellFormed ∧ a = 1 ∧ b = 1 ∧ c = 1) := by
  refine ⟨fun line h => ofLine?_eq_some_iff, ?_, fun h _ _ _ => ofLine?_print,
    fun l inPlace => ofLine?_spaced inPlace⟩
  intro l l' formed formed' same
  rw [← l.spaced_one] at same
  exact (Layout.eq_of_spaced_eq_line formed' formed.inPlace same).1

/-! A header with a zero in front, a count left out and marks in its heading; and a line with a
sign in the place of a number. -/

namespace Titled

def layout : Layout := ⟨['0', '9'], some ['3'], ['1', '2'], none, " a @@ -1 +1 @@".toList⟩

def hunk : Hunk := ⟨9, 3, 12, 1⟩

def signed : Layout := ⟨['+', '9'], some ['3'], ['1', '2'], none, []⟩

theorem formed : layout.WellFormed where
  oldStart := ⟨List.all_eq_true.mp rfl, by decide, by decide⟩
  oldCount := by
    rintro _ ⟨⟩
    exact ⟨List.all_eq_true.mp rfl, by decide, by decide⟩
  newStart := ⟨List.all_eq_true.mp rfl, by decide, by decide⟩
  newCount := nofun

theorem inRange : hunk.InRange := by
  constructor
  all_goals decide

theorem signed_inPlace : signed.InPlace := by
  constructor
  all_goals decide

/-- A sign is no part of a number. -/
theorem signed_not_formed : ¬ signed.WellFormed := fun formed =>
  formed.oldStart.notMem (c := '+') rfl (by decide)

end Titled

theorem ofLine?_grammar_titled :
    Titled.layout.WellFormed ∧
      ofLine? "@@ -09,3 +12 @@ a @@ -1 +1 @@".toList = some Titled.hunk ∧
      (∀ l : Layout, l.WellFormed → l.line = "@@ -09,3 +12 @@ a @@ -1 +1 @@".toList →
        l = Titled.layout) ∧
      Titled.hunk.InRange ∧ ofLine? "@@ -9,3 +12,1 @@".toList = some Titled.hunk ∧
      Titled.signed.InPlace ∧ ofLine? "@@ -+9,3 +12 @@".toList = none := by
  obtain ⟨read, unique, print, spaced⟩ := ofLine?_grammar
  refine ⟨Titled.formed, (read _ _).mpr ⟨Titled.layout, Titled.formed, rfl, rfl⟩, ?_,
    Titled.inRange, print Titled.hunk true false [] Titled.inRange, Titled.signed_inPlace, ?_⟩
  · intro l formed same
    exact unique l Titled.layout formed Titled.formed same
  · exact (spaced Titled.signed Titled.signed_inPlace 1 1 1).mpr fun numbers =>
      Titled.signed_not_formed numbers.1

end Hunk

end PatchLint.Diff
