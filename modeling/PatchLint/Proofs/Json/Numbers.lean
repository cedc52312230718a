import PatchLint.Json.Reader
import PatchLint.Number.Shortest
import PatchLint.Proofs.Text.Digits

/-!
Numbers of JSON, written and read.

`NumberText.written` is the text of the parts of a number. What the printers of integers
and of floating point numbers write has such parts.

* `readNumberText_written`: a number is read to its end, and its parts are read.
* `written_ofInt`, `exists_written_float`: the numbers that are printed have parts.
* `value?_ofInt`: an integer of 64 bits is read as itself.
-/

namespace PatchLint.Json

open PatchLint.Text (Digits Undigited undigited_cons)

/-- What may stand behind a number: nothing that could still belong to it. -/
def Stops (rest : List Char) : Prop :=
  ∀ c ∈ rest.head?, c.isDigit = false ∧ c ≠ '.' ∧ c ≠ 'e' ∧ c ≠ 'E'

theorem stops_nil : Stops [] := by
  intro c hc
  cases hc

theorem stops_cons {c : Char} {rest : List Char}
    (stop : c.isDigit = false ∧ c ≠ '.' ∧ c ≠ 'e' ∧ c ≠ 'E') : Stops (c :: rest) := by
  intro c' hc
  cases hc
  exact stop

theorem Stops.undigited {rest : List Char} (stops : Stops rest) : Undigited rest :=
  fun c hc => (stops c hc).1

/-! ### Parts -/

namespace NumberText

def fractionText : Option (List Char) → List Char
  | none => []
  | some ds => '.' :: ds

def exponentText : Option (Bool × List Char) → List Char
  | none => []
  | some (minus, ds) => 'e' :: (if minus then '-' else '+') :: ds

def written (t : NumberText) : List Char :=
  (if t.negative then ['-'] else []) ++ t.whole ++ fractionText t.fraction ++
    exponentText t.exponent

/-- Every part that is there has digits. -/
structure HasDigits (t : NumberText) : Prop where
  whole : Digits t.whole ∧ t.whole ≠ []
  fraction : ∀ ds ∈ t.fraction, Digits ds ∧ ds ≠ []
  exponent : ∀ e ∈ t.exponent, Digits e.2 ∧ e.2 ≠ []

/-- A zero stands in front of another digit, which no number may have. -/
def isPadded : List Char → Bool
  | '0' :: _ :: _ => true
  | _ => false

end NumberText

open NumberText

/-! ### Reading the parts -/

/-- The digits in front are read, if no other follows. -/
theorem readDigits_append {ds rest : List Char} (digits : Digits ds) (nonempty : ds ≠ [])
    (stops : Undigited rest) : readDigits (ds ++ rest) = some (ds, rest) := by
  rw [readDigits, Text.takeWhile_digits digits stops, Text.dropWhile_digits digits stops]
  cases ds with
  | nil => exact absurd rfl nonempty
  | cons d ds => rfl

/-- The exponent that is printed is read. -/
theorem readExponent_append {e : Option (Bool × List Char)}
    (digits : ∀ x ∈ e, Digits x.2 ∧ x.2 ≠ []) {rest : List Char} (stops : Stops rest) :
    readExponent (exponentText e ++ rest) = some (e, rest) := by
  cases e with
  | none =>
      cases rest with
      | nil => rfl
      | cons c rest =>
          obtain ⟨-, -, lower, upper⟩ := stops c rfl
          simp [exponentText, readExponent, lower, upper]
  | some x =>
      obtain ⟨minus, ds⟩ := x
      obtain ⟨isDigits, nonempty⟩ := digits _ rfl
      have read := readDigits_append isDigits nonempty stops.undigited
      cases minus with
      | true => simp [exponentText, readExponent, read]
      | false => simp [exponentText, readExponent, read]

theorem undigited_exponent (e : Option (Bool × List Char)) {rest : List Char}
    (stops : Stops rest) : Undigited (exponentText e ++ rest) := by
  cases e with
  | none => exact stops.undigited
  | some x => exact undigited_cons (by decide)

/-- So is the fraction in front of it. -/
theorem readFraction_append {f : Option (List Char)} (digits : ∀ ds ∈ f, Digits ds ∧ ds ≠ [])
    (e : Option (Bool × List Char)) {rest : List Char} (stops : Stops rest) :
    readFraction (fractionText f ++ (exponentText e ++ rest)) =
      some (f, exponentText e ++ rest) := by
  cases f with
  | some ds =>
      obtain ⟨isDigits, nonempty⟩ := digits ds rfl
      have read := readDigits_append isDigits nonempty (undigited_exponent e stops)
      simp [fractionText, readFraction, read]
  | none =>
      cases e with
      | some x => rfl
      | none =>
          cases rest with
          | nil => rfl
          | cons c rest =>
              obtain ⟨-, point, -, -⟩ := stops c rfl
              show readFraction (c :: rest) = some (none, c :: rest)
              rw [readFraction]
              intro rest' same
              exact point (List.cons.inj same).1

theorem undigited_fraction (f : Option (List Char)) (e : Option (Bool × List Char))
    {rest : List Char} (stops : Stops rest) :
    Undigited (fractionText f ++ (exponentText e ++ rest)) := by
  cases f with
  | none => exact undigited_exponent e stops
  | some ds => exact undigited_cons (by decide)

/-- They are the whole part, unless a zero is in front of them. -/
theorem readWhole_append {ds rest : List Char} (digits : Digits ds) (nonempty : ds ≠ [])
    (stops : Undigited rest) :
    readWhole (ds ++ rest) = if isPadded ds then none else some (ds, rest) := by
  rw [readWhole, readDigits_append digits nonempty stops]
  unfold isPadded
  split
  · rename_i same
    cases same
    rfl
  · rename_i unpadded
    split
    · exact absurd rfl (unpadded _ _ _)
    · rfl

/-- What `readNumberText` does after the sign. -/
theorem readNumberText_unsigned {t : NumberText} (digits : t.HasDigits) {rest : List Char}
    (stops : Stops rest) :
    (do
      let (whole, s) ← readWhole (t.whole ++ (fractionText t.fraction ++
        (exponentText t.exponent ++ rest)))
      let (fraction, s) ← readFraction s
      let (exponent, s) ← readExponent s
      return (⟨t.negative, whole, fraction, exponent⟩, s) : Option (NumberText × List Char)) =
      if isPadded t.whole then none else some (t, rest) := by
  rw [readWhole_append digits.whole.1 digits.whole.2
    (undigited_fraction t.fraction t.exponent stops)]
  cases isPadded t.whole with
  | true => rfl
  | false =>
      simp only [Bool.false_eq_true, if_false, Option.bind_eq_bind, Option.bind_some,
        readFraction_append digits.fraction t.exponent stops,
        readExponent_append digits.exponent stops]
      rfl

/-- **A number is read to its end**, unless it is padded. -/
theorem readNumberText_written {t : NumberText} (digits : t.HasDigits) {rest : List Char}
    (stops : Stops rest) :
    readNumberText (t.written ++ rest) = if isPadded t.whole then none else some (t, rest) := by
  rw [← readNumberText_unsigned digits stops]
  cases negative : t.negative with
  | true =>
      simp [readNumberText, written, negative]
  | false =>
      obtain ⟨d, ds, whole⟩ := List.exists_cons_of_ne_nil digits.whole.2
      have unsigned : d ≠ '-' := by
        rintro rfl
        have isDigit := digits.whole.1 '-' (by rw [whole]; exact List.mem_cons_self)
        exact absurd isDigit (by decide)
      simp [readNumberText, written, negative, whole, unsigned]

/-! ### Integers -/

def NumberText.ofInt (n : Int) : NumberText := ⟨n < 0, Nat.toDigits 10 n.natAbs, none, none⟩

theorem hasDigits_ofInt (n : Int) : (ofInt n).HasDigits where
  whole := ⟨Text.digits_toDigits _, Nat.toDigits_ne_nil⟩
  fraction := by simp [ofInt]
  exponent := by simp [ofInt]

theorem written_ofInt (n : Int) : (ofInt n).written = intText n := by
  by_cases negative : n < 0
  · simp [written, ofInt, intText, negative, fractionText, exponentText]
  · simp [written, ofInt, intText, negative, fractionText, exponentText]

theorem isPadded_toDigits (n : Nat) : isPadded (Nat.toDigits 10 n) = false := by
  rcases Nat.eq_zero_or_pos n with rfl | positive
  · rfl
  · have unpadded := Text.head?_toDigits positive
    unfold isPadded
    split
    · rename_i same
      rw [same] at unpadded
      exact absurd rfl unpadded
    · rfl

/-- An integer that fits 64 bits is read as itself. -/
theorem value?_ofInt {n : Int} (fits : -(negatedMax : Int) ≤ n ∧ n ≤ wordMax) :
    (ofInt n).value? = some (.int n) := by
  by_cases negative : n < 0
  · have positive : 0 < n.natAbs ∧ n.natAbs ≤ negatedMax := by omega
    have same : -(n.natAbs : Int) = n := by omega
    simp only [value?, ofInt, Text.digitsValue_toDigits, decide_eq_true_eq, if_pos negative,
      if_pos positive, same]
  · have small : n.natAbs ≤ wordMax := by omega
    have same : (n.natAbs : Int) = n := by omega
    simp only [value?, ofInt, Text.digitsValue_toDigits, decide_eq_true_eq, if_neg negative,
      if_pos small, same]

/-! ### Floating point numbers -/

theorem digits_append {a b : List Char} (left : Digits a) (right : Digits b) :
    Digits (a ++ b) := by
  intro c hc
  rcases List.mem_append.mp hc with hc | hc
  · exact left c hc
  · exact right c hc

theorem digits_zeros (n : Nat) : Digits (List.replicate n '0') := by
  intro c hc
  rw [List.eq_of_mem_replicate hc]
  rfl

theorem digits_of_subset {a b : List Char} (digits : Digits b) (subset : a ⊆ b) : Digits a :=
  fun c hc => digits c (subset hc)

/-- The significant digits are digits, and there is one. -/
theorem digits_significant (d : Decimal) :
    Digits (Binary64.significant d).1 ∧ (Binary64.significant d).1 ≠ [] := by
  simp only [Binary64.significant]
  split
  · exact ⟨by simp [Digits], by simp⟩
  · rename_i nonempty
    refine ⟨digits_of_subset (Text.digits_toDigits d.digits) ?_, by simpa using nonempty⟩
    intro c hc
    rw [List.mem_reverse] at hc
    exact List.mem_reverse.mp ((List.dropWhile_suffix _).subset hc)

/-- The text has the parts of a number, without a sign. -/
def Unsigned (s : List Char) : Prop :=
  ∃ t : NumberText, t.HasDigits ∧
    s = t.whole ++ fractionText t.fraction ++ exponentText t.exponent

/-- A whole part and a fraction make a number. -/
theorem unsigned_of_fraction {whole fraction : List Char} (hWhole : Digits whole ∧ whole ≠ [])
    (hFraction : Digits fraction ∧ fraction ≠ []) : Unsigned (whole ++ '.' :: fraction) := by
  refine ⟨⟨false, whole, some fraction, none⟩, ⟨hWhole, ?_, by simp⟩, ?_⟩
  · rintro ds ⟨⟩
    exact hFraction
  · simp [fractionText, exponentText]

theorem unsigned_positional {digits : List Char} (isDigits : Digits digits)
    (nonempty : digits ≠ []) (k : Int) : Unsigned (Binary64.positional digits k) := by
  unfold Binary64.positional
  by_cases small : k ≤ 0
  · rw [if_pos small]
    show Unsigned (['0'] ++ '.' :: (List.replicate (-k).toNat '0' ++ digits))
    refine unsigned_of_fraction ⟨digits_zeros 1, by simp⟩ ⟨?_, by simp [nonempty]⟩
    exact digits_append (digits_zeros _) isDigits
  · have positive : k.toNat ≠ 0 := by omega
    rw [if_neg small, List.append_assoc _ ['.']]
    refine unsigned_of_fraction ⟨?_, by simp [nonempty, positive]⟩ ?_
    · exact digits_append (digits_of_subset isDigits (List.take_subset _ _)) (digits_zeros _)
    · split
      · exact ⟨digits_zeros 1, by simp⟩
      · rename_i more
        exact ⟨digits_of_subset isDigits (List.drop_subset _ _), by simpa using more⟩

theorem unsigned_scientific {digits : List Char} (isDigits : Digits digits)
    (nonempty : digits ≠ []) (k : Int) : Unsigned (Binary64.scientific digits k) := by
  obtain ⟨d, ds, rfl⟩ := List.exists_cons_of_ne_nil nonempty
  have first : Digits [d] ∧ [d] ≠ [] := ⟨digits_of_subset isDigits (by simp), by simp⟩
  have power : ∀ e ∈ some (decide (k < 0), Nat.toDigits 10 k.natAbs), Digits e.2 ∧ e.2 ≠ [] := by
    rintro e ⟨⟩
    exact ⟨Text.digits_toDigits _, Nat.toDigits_ne_nil⟩
  cases ds with
  | nil =>
      refine ⟨⟨false, [d], none, _⟩, ⟨first, by simp, power⟩, ?_⟩
      simp [Binary64.scientific, fractionText, exponentText]
  | cons e ds =>
      refine ⟨⟨false, [d], some (e :: ds), _⟩, ⟨first, ?_, power⟩, ?_⟩
      · rintro fraction ⟨⟩
        exact ⟨digits_of_subset isDigits (List.subset_cons_self _ _), by simp⟩
      · simp [Binary64.scientific, fractionText, exponentText]

/-- **The text of a floating point number has the parts of a number.** -/
theorem exists_written_float (x : Binary64) :
    ∃ t : NumberText, t.HasDigits ∧ t.written = x.text.toList := by
  obtain ⟨isDigits, nonempty⟩ := digits_significant x.shortest
  have unsigned : ∃ s, Unsigned s ∧ x.text.toList = if x.negative then '-' :: s else s := by
    simp only [Binary64.text, String.toList_ofList]
    refine ⟨_, ?_, rfl⟩
    split
    · show Unsigned (['0'] ++ '.' :: ['0'])
      exact unsigned_of_fraction ⟨digits_zeros 1, by simp⟩ ⟨digits_zeros 1, by simp⟩
    · split
      · exact unsigned_positional isDigits nonempty _
      · exact unsigned_scientific isDigits nonempty _
  obtain ⟨_, ⟨t, digits, rfl⟩, text⟩ := unsigned
  refine ⟨{ t with negative := x.negative }, ⟨digits.whole, digits.fraction, digits.exponent⟩, ?_⟩
  rw [text]
  cases negative : x.negative with
  | true => simp [written]
  | false => simp [written]

end PatchLint.Json
