import PatchLint.Text.Basic

/-!
Replacing a part of a text wherever it stands.

A text falls into pieces around the occurrences of a part. If the part cannot overlap with itself
there is one way to cut the text (`Pieces.unique`), and so it does not matter in which order the
occurrences are looked for.

* `exists_pieces`: every text falls into pieces.
* `Pieces.replace_eq`: replacing puts the other text between the pieces and leaves these alone.
-/

namespace PatchLint.Text

variable {part whole s : List Char} {pieces others : List (List Char)}

/-- The part cannot overlap with itself: it does not have its first character again. -/
def Solid : List Char → Prop
  | [] => False
  | c :: more => c ∉ more

instance : (part : List Char) → Decidable (Solid part)
  | [] => inferInstanceAs (Decidable False)
  | c :: more => inferInstanceAs (Decidable (c ∉ more))

/-- The text is cut at the part: the part stands between the pieces, and in none of them. -/
structure Pieces (part s : List Char) (pieces : List (List Char)) : Prop where
  nonempty : pieces ≠ []
  joined : part.intercalate pieces = s
  free : ∀ piece ∈ pieces, ¬ part <:+: piece

/-! ### Steps -/

theorem Solid.ne_nil (solid : Solid part) : part ≠ [] := by
  rintro rfl
  exact solid

/-- The first occurrence behind a text without one begins where this text ends. -/
theorem Solid.not_isPrefix (solid : Solid part) {piece : List Char} (some_text : piece ≠ [])
    (free : ¬ part <:+: piece) (rest : List Char) : ¬ part <+: piece ++ (part ++ rest) := by
  intro isPrefix
  have starts : piece <+: piece ++ (part ++ rest) := List.prefix_append piece _
  rcases List.prefix_or_prefix_of_prefix isPrefix starts with inside | ⟨t, split⟩
  · exact free inside.isInfix
  · obtain ⟨c, piece, rfl⟩ := List.exists_cons_of_ne_nil some_text
    cases t with
    | nil =>
        rw [List.append_nil] at split
        exact free (split ▸ List.infix_rfl)
    | cons d t =>
        -- The part goes on with a character that begins its next occurrence.
        subst split
        rw [List.prefix_append_right_inj, List.cons_append, List.cons_append,
          List.cons_prefix_cons] at isPrefix
        exact solid (isPrefix.1 ▸ List.mem_append_right _ List.mem_cons_self)

/-- So the first occurrence is where it is, whatever follows. -/
theorem Solid.before_eq (solid : Solid part) {a b r r' : List Char} (free : ¬ part <:+: a)
    (free' : ¬ part <:+: b) (same : a ++ (part ++ r) = b ++ (part ++ r')) : a = b := by
  rcases List.append_eq_append_iff.mp same with ⟨t, rfl, later⟩ | ⟨t, rfl, later⟩
  · by_cases last : t = []
    · rw [last, List.append_nil]
    · have apart : ¬ part <:+: t :=
        fun inside => free' (inside.trans (List.suffix_append a t).isInfix)
      exact absurd ⟨r, later⟩ (solid.not_isPrefix last apart r')
  · by_cases last : t = []
    · rw [last, List.append_nil]
    · have apart : ¬ part <:+: t :=
        fun inside => free (inside.trans (List.suffix_append b t).isInfix)
      exact absurd ⟨r', later⟩ (solid.not_isPrefix last apart r)

theorem replaceFrom_eq (skip : Nat) (s : List Char) :
    replaceFrom part whole skip s = replace part whole (s.drop skip) := by
  induction skip generalizing s with
  | zero => rfl
  | succ skip ih =>
      cases s with
      | nil => rfl
      | cons c s => rw [replaceFrom, ih, List.drop_succ_cons]

/-- An occurrence in front is replaced, and the scan goes on behind it. -/
theorem replace_append (nonempty : part ≠ []) (rest : List Char) :
    replace part whole (part ++ rest) = whole ++ replace part whole rest := by
  obtain ⟨c, more, rfl⟩ := List.exists_cons_of_ne_nil nonempty
  have here : (c :: more).isPrefixOf (c :: (more ++ rest)) = true :=
    List.isPrefixOf_iff_prefix.mpr (List.prefix_append (c :: more) rest)
  rw [replace, List.cons_append, replaceFrom, if_pos here, replaceFrom_eq, List.length_cons,
    Nat.add_sub_cancel, List.drop_left]

/-- A character in front of which no occurrence begins stays. -/
theorem replace_cons {c : Char} {rest : List Char} (apart : ¬ part <+: c :: rest) :
    replace part whole (c :: rest) = c :: replace part whole rest := by
  have other : ¬ part.isPrefixOf (c :: rest) = true := mt List.isPrefixOf_iff_prefix.mp apart
  rw [replace, replaceFrom, if_neg other]
  rfl

/-! ### Pieces -/

theorem Pieces.single (free : ¬ part <:+: s) : Pieces part s [s] :=
  ⟨List.cons_ne_nil _ _, List.intercalate_singleton, List.forall_mem_singleton.mpr free⟩

theorem intercalate_cons (part piece : List Char) (nonempty : pieces ≠ []) :
    part.intercalate (piece :: pieces) = piece ++ (part ++ part.intercalate pieces) := by
  obtain ⟨next, more, rfl⟩ := List.exists_cons_of_ne_nil nonempty
  rw [List.intercalate_cons_cons, List.append_assoc]

theorem Pieces.cons {piece : List Char} (free : ¬ part <:+: piece) (rest : Pieces part s pieces) :
    Pieces part (piece ++ (part ++ s)) (piece :: pieces) := by
  obtain ⟨nonempty, rfl, others⟩ := rest
  exact ⟨List.cons_ne_nil _ _, intercalate_cons part piece nonempty,
    List.forall_mem_cons.mpr ⟨free, others⟩⟩

/-- The first piece is all, or the part and the other pieces follow it. -/
theorem Pieces.cases {piece : List Char} (cut : Pieces part s (piece :: pieces)) :
    (pieces = [] ∧ s = piece) ∨
      ∃ rest, Pieces part rest pieces ∧ s = piece ++ (part ++ rest) := by
  obtain ⟨-, joined, free⟩ := cut
  by_cases last : pieces = []
  · subst last
    rw [List.intercalate_singleton] at joined
    exact .inl ⟨rfl, joined.symm⟩
  · rw [intercalate_cons part piece last] at joined
    exact .inr ⟨_, ⟨last, rfl, fun p mem => free p (List.mem_cons_of_mem _ mem)⟩, joined.symm⟩

/-- **Every text falls into pieces.** -/
theorem exists_pieces (nonempty : part ≠ []) (s : List Char) : ∃ pieces, Pieces part s pieces := by
  induction shorter : s.length using Nat.strongRecOn generalizing s with
  | ind n ih =>
      by_cases here : part <+: s
      · obtain ⟨rest, rfl⟩ := here
        have some_text := List.length_pos_iff.mpr nonempty
        rw [List.length_append] at shorter
        obtain ⟨pieces, cut⟩ := ih rest.length (by omega) rest rfl
        exact ⟨[] :: pieces, cut.cons (mt List.eq_nil_of_infix_nil nonempty)⟩
      · cases s with
        | nil => exact ⟨[[]], .single (mt List.eq_nil_of_infix_nil nonempty)⟩
        | cons c s =>
            obtain ⟨pieces, cut⟩ := ih s.length (by rw [← shorter]; exact Nat.lt_succ_self _) s rfl
            obtain ⟨piece, pieces, rfl⟩ := List.exists_cons_of_ne_nil cut.nonempty
            have free : ∀ rest, s = piece ++ rest → ¬ part <:+: c :: piece := by
              rintro rest rfl inside
              rcases List.infix_cons_iff.mp inside with first | later
              · exact here (first.trans (List.prefix_append (c :: piece) rest))
              · exact cut.free piece List.mem_cons_self later
            rcases cut.cases with ⟨rfl, whole⟩ | ⟨rest, others, whole⟩
            · exact ⟨[c :: s], .single (whole ▸ free [] (by rw [whole, List.append_nil]))⟩
            · rw [whole]
              exact ⟨(c :: piece) :: pieces, others.cons (free _ whole)⟩

/-- What joins two pieces occurs in the whole. -/
theorem infix_of_joined (piece rest : List Char) : part <:+: piece ++ (part ++ rest) :=
  ⟨piece, rest, List.append_assoc piece part rest⟩

/-- **A text falls into pieces in one way.** -/
theorem Pieces.unique (solid : Solid part) (cut : Pieces part s pieces)
    (cut' : Pieces part s others) : pieces = others := by
  induction pieces generalizing s others with
  | nil => exact absurd rfl cut.nonempty
  | cons piece pieces ih =>
      obtain ⟨piece', others, rfl⟩ := List.exists_cons_of_ne_nil cut'.nonempty
      have free := cut.free piece List.mem_cons_self
      have free' := cut'.free piece' List.mem_cons_self
      rcases cut.cases with ⟨rfl, rfl⟩ | ⟨rest, more, rfl⟩
      · rcases cut'.cases with ⟨rfl, rfl⟩ | ⟨rest', more', rfl⟩
        · rfl
        · exact absurd (infix_of_joined piece' rest') free
      · rcases cut'.cases with ⟨rfl, rfl⟩ | ⟨rest', more', same⟩
        · exact absurd (infix_of_joined piece rest) free'
        · obtain rfl := solid.before_eq free free' same
          have rests := List.append_cancel_left (List.append_cancel_left same)
          rw [ih more (rests ▸ more')]

theorem replace_of_free (free : ¬ part <:+: s) : replace part whole s = s := by
  induction s with
  | nil => rfl
  | cons c s ih =>
      rw [List.infix_cons_iff, not_or] at free
      rw [replace_cons free.1, ih free.2]

theorem replace_piece (solid : Solid part) {piece : List Char} (free : ¬ part <:+: piece)
    (rest : List Char) : replace part whole (piece ++ (part ++ rest)) =
      piece ++ (whole ++ replace part whole rest) := by
  induction piece with
  | nil => exact replace_append solid.ne_nil rest
  | cons c piece ih =>
      have apart := solid.not_isPrefix (List.cons_ne_nil c piece) free rest
      rw [List.infix_cons_iff, not_or] at free
      rw [List.cons_append] at apart
      rw [List.cons_append, replace_cons apart, ih free.2, List.cons_append]

/-- **Replacing a part leaves the pieces alone**, and puts the other text between them. -/
theorem Pieces.replace_eq (solid : Solid part) (cut : Pieces part s pieces) :
    replace part whole s = whole.intercalate pieces := by
  induction pieces generalizing s with
  | nil => exact absurd rfl cut.nonempty
  | cons piece pieces ih =>
      have free := cut.free piece List.mem_cons_self
      rcases cut.cases with ⟨rfl, rfl⟩ | ⟨rest, more, rfl⟩
      · rw [replace_of_free free, List.intercalate_singleton]
      · rw [replace_piece solid free, ih more, intercalate_cons whole piece more.nonempty]

end PatchLint.Text
