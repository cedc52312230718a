import PatchLint.Json.Printer
import PatchLint.Json.Reader

/-!
Strings of JSON, written and read.

* `readString_stringText`: whatever characters a string has, it is read back as it was
  written, up to its closing quote.
-/

namespace PatchLint.Json

/-- The controls below U+0020 are read from the digits they are written with. -/
theorem hexQuad?_hexPair : ∀ n < 0x20,
    hexQuad? '0' '0' (Nat.digitChar (n / 16)) (Nat.digitChar (n % 16)) = some n := by
  decide

theorem isSurrogate_control {n : Nat} (control : n < 0x20) :
    isLowSurrogate n = false ∧ isHighSurrogate n = false := by
  simp only [isLowSurrogate, isHighSurrogate, Bool.and_eq_false_iff, decide_eq_false_iff_not]
  omega

theorem readString_control {n : Nat} (control : n < 0x20) (rest : List Char) :
    readString (['\\', 'u', '0', '0'] ++ hexPair n ++ rest) =
      consChar (Char.ofNat n) (readString rest) := by
  obtain ⟨low, high⟩ := isSurrogate_control control
  simp only [hexPair, List.cons_append, List.nil_append]
  rw [readString, hexQuad?_hexPair n control]
  simp [low, high]

/-- A character that needs no escape is read as itself. -/
theorem readString_plain {c : Char} (quote : c ≠ '"') (backslash : c ≠ '\\')
    (printing : ¬ c.toNat < 0x20) (rest : List Char) :
    readString (c :: rest) = consChar c (readString rest) := by
  rw [readString.eq_def]
  split
  · rename_i same
    cases same
  · rename_i same
    exact absurd (List.cons.inj same).1 quote
  · rename_i same
    exact absurd (List.cons.inj same).1 backslash
  · rename_i same
    exact absurd (List.cons.inj same).1 backslash
  · rename_i same
    obtain ⟨rfl, rfl⟩ := List.cons.inj same
    rw [if_neg (by simp [printing, backslash])]

/-- **A character of a string is read as it was written.** -/
theorem readString_stringChar (c : Char) (rest : List Char) :
    readString (stringChar c ++ rest) = consChar c (readString rest) := by
  unfold stringChar
  by_cases quote : c = '"'
  · subst quote
    rfl
  rw [if_neg quote]
  by_cases backslash : c = '\\'
  · subst backslash
    rfl
  rw [if_neg backslash]
  by_cases newline : c = '\n'
  · subst newline
    rfl
  rw [if_neg newline]
  by_cases carriage : c = '\r'
  · subst carriage
    rfl
  rw [if_neg carriage]
  by_cases tab : c = '\t'
  · subst tab
    rfl
  rw [if_neg tab]
  by_cases backspace : c = '\x08'
  · subst backspace
    rfl
  rw [if_neg backspace]
  by_cases feed : c = '\x0c'
  · subst feed
    rfl
  rw [if_neg feed]
  by_cases control : c.toNat < 0x20
  · rw [if_pos control, readString_control control, Char.ofNat_toNat]
  · rw [if_neg control]
    exact readString_plain quote backslash control rest

theorem readString_flatMap (s rest : List Char) :
    readString (s.flatMap stringChar ++ '"' :: rest) = some (s, rest) := by
  induction s with
  | nil => rfl
  | cons c s ih =>
      rw [List.flatMap_cons, List.append_assoc, readString_stringChar, ih]
      rfl

/-- **A string is read back as it was written.** -/
theorem readString_stringText (s : String) (rest : List Char) :
    ∃ text, stringText s ++ rest = '"' :: text ∧ readString text = some (s.toList, rest) := by
  refine ⟨s.toList.flatMap stringChar ++ '"' :: rest, ?_, readString_flatMap s.toList rest⟩
  simp [stringText]

end PatchLint.Json
