import PatchLint.Text.Basic

/-!
The names of files as tools write them, and what is made of them.

What a tool writes is trimmed, and its backslashes become slashes. Most names are left alone.

* `trim_eq_self`: trimming leaves a name alone that has no blank at either end.
* `trimEnd_eq_iff`: trimmed at its end only, a printable name loses its last spaces.
* `slashed_eq_self_iff`: and slashes are put only where there was a backslash.
-/

namespace PatchLint.Text

/-- The character is one of ASCII that can be seen, or a space. -/
def Printable (c : Char) : Prop := 0x20 ≤ c.toNat ∧ c.toNat ≤ 0x7E

instance (c : Char) : Decidable (Printable c) := by
  unfold Printable; infer_instance

-- The characters of the text are tried, not all there are.
instance (s : List Char) : Decidable (∀ c ∈ s, Printable c) := List.decidableBAll Printable s

/-- The only blank among these is the space. -/
theorem Printable.isBlank_iff {c : Char} (printable : Printable c) : isBlank c = true ↔ c = ' ' := by
  constructor
  · intro blank
    obtain ⟨least, greatest⟩ := printable
    have code : c.toNat = 0x20 := by
      simp [isBlank] at blank
      omega
    exact Char.toNat_inj.mp code
  · rintro rfl
    rfl

variable {s : List Char}

/-! ### Trimming -/

theorem trimStart_eq_self (first : ∀ c ∈ s.head?, isBlank c = false) : trimStart s = s := by
  cases s with
  | nil => rfl
  | cons c s =>
      have shown := first c rfl
      rw [trimStart, List.dropWhile_cons, if_neg (by simp [shown])]

theorem trimEnd_eq_self (last : ∀ c ∈ s.getLast?, isBlank c = false) : trimEnd s = s := by
  have reversed := trimStart_eq_self (s := s.reverse) (by rwa [List.head?_reverse])
  rw [trimStart] at reversed
  rw [trimEnd, reversed, List.reverse_reverse]

/-- **A text with no blank at either end is left alone.** -/
theorem trim_eq_self (first : ∀ c ∈ s.head?, isBlank c = false)
    (last : ∀ c ∈ s.getLast?, isBlank c = false) : trim s = s := by
  rw [trim, trimStart_eq_self first, trimEnd_eq_self last]

/-- What is left of a text does not end with a blank. -/
theorem isBlank_getLast_trimEnd (s : List Char) :
    ∀ c ∈ (trimEnd s).getLast?, isBlank c = false := by
  intro c last
  have first := List.head?_dropWhile_not isBlank s.reverse
  rw [trimEnd, List.getLast?_reverse] at last
  rw [Option.mem_def.mp last] at first
  simpa using first

/-- Trimming at the end changes exactly the texts that end with a blank. -/
theorem trimEnd_eq_self_iff : trimEnd s = s ↔ ∀ c ∈ s.getLast?, isBlank c = false := by
  constructor
  · intro same
    rw [← same]
    exact isBlank_getLast_trimEnd s
  · exact trimEnd_eq_self

/-- Blanks behind a text do not matter. -/
theorem trimEnd_append (s : List Char) {blanks : List Char}
    (blank : ∀ c ∈ blanks, isBlank c = true) : trimEnd (s ++ blanks) = trimEnd s := by
  have reversed : ∀ c ∈ blanks.reverse, isBlank c = true := by
    intro c mem
    exact blank c (List.mem_reverse.mp mem)
  rw [trimEnd, trimEnd, List.reverse_append, List.dropWhile_append_of_pos reversed]

/-- What is taken off at the end are blanks. -/
theorem exists_blanks_of_trimEnd (s : List Char) :
    ∃ blanks, s = trimEnd s ++ blanks ∧ ∀ c ∈ blanks, isBlank c = true := by
  refine ⟨(s.reverse.takeWhile isBlank).reverse, ?_, ?_⟩
  · rw [trimEnd, ← List.reverse_append, List.takeWhile_append_dropWhile, List.reverse_reverse]
  · intro c mem
    exact List.all_eq_true.mp List.all_takeWhile c (List.mem_reverse.mp mem)

/-- **Of a printable text the spaces at its end are taken off.** -/
theorem trimEnd_eq_iff (printable : ∀ c ∈ s, Printable c) {t : List Char} :
    trimEnd s = t ↔ t.getLast? ≠ some ' ' ∧ ∃ n, s = t ++ List.replicate n ' ' := by
  constructor
  · rintro rfl
    obtain ⟨blanks, split, blank⟩ := exists_blanks_of_trimEnd s
    -- Of the printable characters only the space is a blank.
    have spaces : blanks = List.replicate blanks.length ' ' := by
      refine List.eq_replicate_iff.mpr ⟨rfl, fun c mem => ?_⟩
      have inside : c ∈ s := by
        rw [split]
        exact List.mem_append_right _ mem
      exact (printable c inside).isBlank_iff.mp (blank c mem)
    refine ⟨?_, blanks.length, ?_⟩
    · intro last
      cases isBlank_getLast_trimEnd s _ last
    · rw [← spaces]
      exact split
  · rintro ⟨ends, n, rfl⟩
    have blank : ∀ c ∈ List.replicate n ' ', isBlank c = true := by
      intro c mem
      rw [List.eq_of_mem_replicate mem]
      rfl
    rw [trimEnd_append t blank, trimEnd_eq_self_iff]
    intro c last
    have inside := List.mem_append_left (List.replicate n ' ') (List.mem_of_getLast? last)
    rw [Bool.eq_false_iff, ne_eq, (printable c inside).isBlank_iff]
    rintro rfl
    exact ends last

/-! ### Slashes -/

/-- There is no backslash left. -/
theorem backslash_notMem_slashed (s : List Char) : '\\' ∉ slashed s := by
  intro mem
  obtain ⟨c, -, image⟩ := List.mem_map.mp mem
  split at image
  · cases image
  · rename_i other
    exact other image

/-- Slashes are put only where there was a backslash. -/
theorem slashed_eq_self_iff : slashed s = s ↔ '\\' ∉ s := by
  constructor
  · intro same
    rw [← same]
    exact backslash_notMem_slashed s
  · intro absent
    rw [slashed, List.map_congr_left (g := id), List.map_id]
    intro c mem
    have other : c ≠ '\\' := ne_of_mem_of_not_mem mem absent
    rw [if_neg other, id]

end PatchLint.Text
