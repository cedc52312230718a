import Mathlib.Data.List.Basic
import Mathlib.Data.List.Induction
import PatchLint.Check

/-!
Lists without repeats, and the last of a kind.

* `Check.mem_distinct`, `Check.distinct_ordered`: a list without what was there before has the same
  elements, each once, in the order of first mention.
* `exists_last`: the last element that something holds of.
-/

namespace PatchLint

/-- What comes in a strict order comes once. -/
theorem nodup_of_ordered {α : Type} {position : α → Nat} {l : List α}
    (ordered : l.Pairwise fun a b => position a < position b) : l.Nodup :=
  ordered.imp fun before same => Nat.ne_of_lt before (congrArg position same)

/-- If something holds of an element of a list, there is a last one that it holds of. -/
theorem exists_last {α : Type} {l : List α} {a : α} (holds : α → Prop) (mem : a ∈ l)
    (here : holds a) :
    ∃ before last after, l = before ++ last :: after ∧ holds last ∧
      ∀ later ∈ after, ¬ holds later := by
  induction l generalizing a with
  | nil => cases mem
  | cons first rest ih =>
      by_cases more : ∃ other ∈ rest, holds other
      · obtain ⟨other, inside, holdsOther⟩ := more
        obtain ⟨before, last, after, rfl, found⟩ := ih inside holdsOther
        exact ⟨first :: before, last, after, rfl, found⟩
      · have none : ∀ later ∈ rest, ¬ holds later := fun later mem holds =>
          more ⟨later, mem, holds⟩
        rcases List.mem_cons.mp mem with rfl | mem
        · exact ⟨[], a, rest, rfl, here, none⟩
        · exact absurd here (none a mem)

namespace Check

theorem distinct_concat (paths : List String) (p : String) :
    distinct (paths ++ [p]) =
      if p ∈ distinct paths then distinct paths else distinct paths ++ [p] := by
  rw [distinct, List.foldl_append]
  simp [distinct]

theorem mem_distinct {paths : List String} {p : String} : p ∈ distinct paths ↔ p ∈ paths := by
  induction paths using List.reverseRecOn with
  | nil => rfl
  | append_singleton paths q ih =>
      rw [distinct_concat]
      split
      · rename_i seen
        rw [ih, List.mem_append, or_iff_left_of_imp]
        intro last
        cases List.mem_singleton.mp last
        exact ih.mp seen
      · rw [List.mem_append, List.mem_append, ih]

/-- **Each once, in the order of first mention.** -/
theorem distinct_ordered (paths : List String) :
    (distinct paths).Pairwise fun p q => paths.idxOf p < paths.idxOf q := by
  induction paths using List.reverseRecOn with
  | nil => exact .nil
  | append_singleton paths q ih =>
      have kept : (distinct paths).Pairwise fun p p' =>
          (paths ++ [q]).idxOf p < (paths ++ [q]).idxOf p' := by
        refine ih.imp_of_mem fun first second before => ?_
        rw [List.idxOf_append_of_mem (mem_distinct.mp first),
          List.idxOf_append_of_mem (mem_distinct.mp second)]
        exact before
      rw [distinct_concat]
      split
      · exact kept
      · rename_i fresh
        refine List.pairwise_append.mpr ⟨kept, List.pairwise_singleton _ _, ?_⟩
        rintro p mem p' last
        cases List.mem_singleton.mp last
        rw [List.idxOf_append_of_mem (mem_distinct.mp mem),
          List.idxOf_append_of_notMem (mt mem_distinct.mpr fresh)]
        exact Nat.lt_add_right _ (List.idxOf_lt_length_of_mem (mem_distinct.mp mem))

end Check

end PatchLint
