import PatchLint.Text.Basic

/-!
Decimal digits written and read.

`Nat.toDigits 10` writes a number and `digitsValue` reads it. A reader takes the leading
digits of a text, so what follows a number must not start with a digit (`Undigited`).
-/

namespace PatchLint.Text

def Digits (ds : List Char) : Prop := ∀ c ∈ ds, c.isDigit = true

/-- The text does not start with a decimal digit. -/
def Undigited (s : List Char) : Prop := ∀ c ∈ s.head?, c.isDigit = false

theorem undigited_cons {c : Char} {s : List Char} (h : c.isDigit = false) :
    Undigited (c :: s) := by
  intro c' hc
  cases hc
  exact h

theorem takeWhile_digits {ds rest : List Char} (digits : Digits ds) (stops : Undigited rest) :
    (ds ++ rest).takeWhile Char.isDigit = ds := by
  rw [List.takeWhile_append_of_pos digits]
  cases rest with
  | nil => simp
  | cons c rest => simp [stops c rfl]

theorem dropWhile_digits {ds rest : List Char} (digits : Digits ds) (stops : Undigited rest) :
    (ds ++ rest).dropWhile Char.isDigit = rest := by
  rw [List.dropWhile_append_of_pos digits]
  cases rest with
  | nil => rfl
  | cons c rest => simp [stops c rfl]

/-- A text is cut in one way into digits and the rest: behind the digits stands a character that
the other first part does not have, and behind the other first part no digit. -/
theorem eq_of_digits {ds rest text more : List Char} (digits : Digits ds)
    (stops : ∀ c ∈ rest.head?, c ∉ text) (undigited : Undigited more)
    (same : ds ++ rest = text ++ more) : ds = text ∧ rest = more := by
  rcases List.append_eq_append_iff.mp same with ⟨tail, rfl, rfl⟩ | ⟨tail, rfl, rfl⟩
  · cases tail with
    | nil => exact ⟨(List.append_nil _).symm, rfl⟩
    | cons c tail => exact absurd (by simp) (stops c rfl)
  · cases tail with
    | nil => exact ⟨List.append_nil _, rfl⟩
    | cons c tail =>
        have digit := digits c (by simp)
        rw [undigited c rfl] at digit
        cases digit

/-! ### Numbers -/

/-- A number is written in digits. -/
theorem digits_toDigits (n : Nat) : Digits (Nat.toDigits 10 n) := fun _ hc =>
  Nat.isDigit_of_mem_toDigits (by decide) (by decide) hc

/-- A positive number is written without a zero in front. -/
theorem head?_toDigits {n : Nat} (positive : 0 < n) : (Nat.toDigits 10 n).head? ≠ some '0' := by
  induction n using Nat.strongRecOn with
  | ind n ih =>
      by_cases small : n < 10
      · have oneDigit : ∀ n < 10, 0 < n → [Nat.digitChar n].head? ≠ some '0' := by decide
        rw [Nat.toDigits_of_lt_base small]
        exact oneDigit n small positive
      · have higher := ih (n / 10) (by omega) (by omega)
        rw [Nat.toDigits_of_base_le (by decide) (by omega)]
        obtain ⟨d, ds, written⟩ :=
          List.exists_cons_of_ne_nil (Nat.toDigits_ne_nil (n := n / 10) (b := 10))
        rw [written] at higher ⊢
        exact higher

theorem digitsValue_eq_ofDigitChars (ds : List Char) :
    digitsValue ds = Nat.ofDigitChars 10 ds 0 := by
  have foldl_eq : ∀ n, ds.foldl (fun n c => n * 10 + (c.toNat - 48)) n =
      Nat.ofDigitChars 10 ds n := by
    induction ds with
    | nil => intro n; rfl
    | cons c ds ih =>
        intro n
        rw [List.foldl_cons, ih, Nat.ofDigitChars_cons, Nat.mul_comm]
        rfl
  exact foldl_eq 0

/-- Its digits have its value. -/
@[simp] theorem digitsValue_toDigits (n : Nat) : digitsValue (Nat.toDigits 10 n) = n := by
  rw [digitsValue_eq_ofDigitChars, Nat.ofDigitChars_toDigits (by decide) (by decide)]

end PatchLint.Text
