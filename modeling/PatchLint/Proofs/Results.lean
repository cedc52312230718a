import Mathlib.Data.List.Forall2

/-!
Results that may be failures: what follows from a success.

A success of a sequence is a success of each of its parts. The lemmas open one step of
`Except` or of `Option` at a time, and runs over a list by an invariant.
-/

namespace PatchLint

section

variable {ε ε' α β σ : Type}

theorem bind_eq_ok {x : Except ε α} {f : α → Except ε β} {b : β} :
    (x >>= f) = .ok b ↔ ∃ a, x = .ok a ∧ f a = .ok b := by
  cases x with
  | error e =>
      constructor
      · rintro ⟨⟩
      · rintro ⟨a, ⟨⟩, _⟩
  | ok a =>
      constructor
      · intro h
        exact ⟨a, rfl, h⟩
      · rintro ⟨_, ⟨⟩, h⟩
        exact h

theorem map_eq_ok {x : Except ε α} {f : α → β} {b : β} :
    x.map f = .ok b ↔ ∃ a, x = .ok a ∧ f a = b := by
  cases x with
  | error e => simp [Except.map]
  | ok a => simp [Except.map]

theorem mapError_eq_ok {x : Except ε α} {f : ε → ε'} {a : α} :
    x.mapError f = .ok a ↔ x = .ok a := by
  cases x with
  | error e =>
      constructor
      · rintro ⟨⟩
      · rintro ⟨⟩
  | ok a =>
      constructor
      · rintro ⟨⟩
        rfl
      · rintro ⟨⟩
        rfl

theorem exists_error_iff {x : Except ε α} : (∃ e, x = .error e) ↔ ¬ ∃ a, x = .ok a := by
  cases x with
  | error e => simp
  | ok a => simp

/-- A check that throws was passed. -/
theorem throw_eq_ok {c : Prop} [Decidable c] {e : ε} {x : Except ε α} {a : α} :
    (do
      if c then throw e
      x) = .ok a ↔ ¬ c ∧ x = .ok a := by
  by_cases holds : c
  · rw [if_pos holds]
    constructor
    · intro same
      cases same
    · rintro ⟨fails, -⟩
      exact absurd holds fails
  · rw [if_neg holds]
    exact (and_iff_right holds).symm

theorem toOption_eq_some {x : Except ε α} {a : α} : x.toOption = some a ↔ x = .ok a := by
  cases x with
  | error e => simp [Except.toOption]
  | ok a => simp [Except.toOption]

/-- Making something of what was read, when it cannot fail, is a map. -/
theorem bind_eq_map {γ : Type} (x : Option (α × γ)) (f : α → β) :
    (do
      let (a, rest) ← x
      return (f a, rest)) = x.map fun (a, rest) => (f a, rest) := by
  cases x with
  | none => rfl
  | some r => rfl

/-- What every step of a run preserves holds after the run. -/
theorem foldlM_ok_preserves (holds : σ → Prop) {step : σ → α → Except ε σ} {l : List α}
    (preserves : ∀ s a s', a ∈ l → step s a = .ok s' → holds s → holds s')
    {s s' : σ} (run : l.foldlM step s = .ok s') (start : holds s) : holds s' := by
  induction l generalizing s with
  | nil =>
      cases run
      exact start
  | cons a l ih =>
      rw [List.foldlM_cons, bind_eq_ok] at run
      obtain ⟨middle, first, rest⟩ := run
      exact ih (fun s a s' ha => preserves s a s' (List.mem_cons_of_mem _ ha)) rest
        (preserves s a middle List.mem_cons_self first start)

/-- Every result of a run over a list is the result of an element. -/
theorem exists_of_mem_mapM_ok {f : α → Except ε β} {l : List α} {bs : List β} {b : β}
    (run : l.mapM f = .ok bs) (mem : b ∈ bs) : ∃ a ∈ l, f a = .ok b := by
  induction l generalizing bs with
  | nil =>
      cases run
      cases mem
  | cons a l ih =>
      rw [List.mapM_cons, bind_eq_ok] at run
      obtain ⟨b', first, run⟩ := run
      obtain ⟨bs', rest, run⟩ := bind_eq_ok.mp run
      cases run
      rcases List.mem_cons.mp mem with rfl | mem
      · exact ⟨a, List.mem_cons_self, first⟩
      · obtain ⟨a', ha', same⟩ := ih rest mem
        exact ⟨a', List.mem_cons_of_mem _ ha', same⟩

/-- A run over a list comes to the results of its elements, one by one. -/
theorem mapM_eq_ok_iff {f : α → Except ε β} {l : List α} {bs : List β} :
    l.mapM f = .ok bs ↔ List.Forall₂ (fun a b => f a = .ok b) l bs := by
  induction l generalizing bs with
  | nil =>
      constructor
      · intro run
        cases run
        exact .nil
      · intro pairs
        cases pairs
        rfl
  | cons a l ih =>
      rw [List.mapM_cons, bind_eq_ok, List.forall₂_cons_left_iff]
      constructor
      · rintro ⟨b, first, run⟩
        obtain ⟨bs', rest, run⟩ := bind_eq_ok.mp run
        cases run
        exact ⟨b, bs', first, ih.mp rest, rfl⟩
      · rintro ⟨b, bs', first, rest, rfl⟩
        exact ⟨b, first, bind_eq_ok.mpr ⟨bs', ih.mpr rest, rfl⟩⟩

/-- It comes to none if, and only if, an element has none. -/
theorem mapM_eq_error_iff {f : α → Except ε β} {l : List α} :
    (∃ e, l.mapM f = .error e) ↔ ∃ a ∈ l, ∃ e, f a = .error e := by
  induction l with
  | nil =>
      constructor
      · rintro ⟨e, ⟨⟩⟩
      · rintro ⟨a, ⟨⟩, -⟩
  | cons a l ih =>
      rw [List.mapM_cons, List.exists_mem_cons_iff, ← ih]
      cases f a with
      | error e => simp [bind, Except.bind]
      | ok b =>
          cases l.mapM f with
          | error e => simp [bind, Except.bind]
          | ok bs => simp [bind, Except.bind, pure, Except.pure]

/-- It comes to results if, and only if, every element has one. -/
theorem exists_mapM_ok_iff {f : α → Except ε β} {l : List α} :
    (∃ bs, l.mapM f = .ok bs) ↔ ∀ a ∈ l, ∃ b, f a = .ok b := by
  rw [← not_iff_not, ← exists_error_iff, mapM_eq_error_iff]
  simp only [exists_error_iff, not_forall, exists_prop]

/-- A run that undoes what was made of every element comes back to the list. -/
theorem mapM_map_self {f : β → Except ε α} {g : α → β} {l : List α}
    (undone : ∀ a ∈ l, f (g a) = .ok a) : (l.map g).mapM f = .ok l := by
  induction l with
  | nil => rfl
  | cons a l ih =>
      rw [List.map_cons, List.mapM_cons, undone a List.mem_cons_self,
        ih fun a' ha' => undone a' (List.mem_cons_of_mem _ ha')]
      rfl

/-- What each result has in common with its element, the lists have in common. -/
theorem map_of_mapM_ok {γ : Type} {f : α → Except ε β} {g : β → γ} {h : α → γ} {l : List α}
    {bs : List β} (run : l.mapM f = .ok bs) (same : ∀ a ∈ l, ∀ b, f a = .ok b → g b = h a) :
    bs.map g = l.map h := by
  induction l generalizing bs with
  | nil =>
      cases run
      rfl
  | cons a l ih =>
      rw [List.mapM_cons, bind_eq_ok] at run
      obtain ⟨b, first, run⟩ := run
      obtain ⟨bs', rest, run⟩ := bind_eq_ok.mp run
      cases run
      rw [List.map_cons, List.map_cons, same a List.mem_cons_self b first,
        ih rest fun a' ha' => same a' (List.mem_cons_of_mem _ ha')]

/-- What two computations do alike does not set their results apart. -/
theorem map_bind_congr {γ : Type} {x : Except ε α} {f g : α → Except ε β} {h : β → γ}
    (next : ∀ a, x = .ok a → (f a).map h = (g a).map h) : (x.bind f).map h = (x.bind g).map h := by
  cases x with
  | error e => rfl
  | ok a => exact next a rfl

theorem map_mapM {γ : Type} (f : α → Except ε β) (h : β → γ) (l : List α) :
    (l.mapM f).map (List.map h) = l.mapM fun a => (f a).map h := by
  induction l with
  | nil => rfl
  | cons a l ih =>
      rw [List.mapM_cons, List.mapM_cons, ← ih]
      cases f a with
      | error e => rfl
      | ok b =>
          cases l.mapM f with
          | error e => rfl
          | ok bs => rfl

/-- The first result of a run over a list is that of the first element. -/
theorem mapM_some_cons {f : α → Option β} {a : α} {l : List α} {bs : List β}
    (run : (a :: l).mapM f = some bs) :
    ∃ b bs', f a = some b ∧ l.mapM f = some bs' ∧ bs = b :: bs' := by
  rw [List.mapM_cons] at run
  obtain ⟨b, first, run⟩ := Option.bind_eq_some_iff.mp run
  obtain ⟨bs', rest, run⟩ := Option.bind_eq_some_iff.mp run
  cases run
  exact ⟨b, bs', first, rest, rfl⟩

theorem exists_of_mem_mapM_some {f : α → Option β} {l : List α} {bs : List β} {b : β}
    (run : l.mapM f = some bs) (mem : b ∈ bs) : ∃ a ∈ l, f a = some b := by
  induction l generalizing bs with
  | nil =>
      cases run
      cases mem
  | cons a l ih =>
      obtain ⟨b', bs', first, rest, rfl⟩ := mapM_some_cons run
      rcases List.mem_cons.mp mem with rfl | mem
      · exact ⟨a, List.mem_cons_self, first⟩
      · obtain ⟨a', ha', same⟩ := ih rest mem
        exact ⟨a', List.mem_cons_of_mem _ ha', same⟩

/-- A run that leaves every element as it is leaves the list as it is. -/
theorem mapM_some_self {f : α → Option α} {l : List α} (same : ∀ a ∈ l, f a = some a) :
    l.mapM f = some l := by
  induction l with
  | nil => rfl
  | cons a l ih =>
      rw [List.mapM_cons, same a List.mem_cons_self,
        ih fun a' ha' => same a' (List.mem_cons_of_mem _ ha')]
      rfl

/-- What each result has in common with its element, the lists have in common. -/
theorem map_of_mapM_some {γ : Type} {f : α → Option β} {g : β → γ} {h : α → γ} {l : List α}
    {bs : List β} (run : l.mapM f = some bs) (same : ∀ a ∈ l, ∀ b, f a = some b → g b = h a) :
    bs.map g = l.map h := by
  induction l generalizing bs with
  | nil =>
      cases run
      rfl
  | cons a l ih =>
      obtain ⟨b, bs', first, rest, rfl⟩ := mapM_some_cons run
      rw [List.map_cons, List.map_cons, same a List.mem_cons_self b first,
        ih rest fun a' ha' => same a' (List.mem_cons_of_mem _ ha')]

end

end PatchLint
