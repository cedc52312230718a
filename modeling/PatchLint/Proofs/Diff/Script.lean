
/-!
Edit scripts.

A script keeps, removes and adds lines, and so turns its old lines into its new ones.
`Adds` and `Keeps` say where a line of the new file comes from, and `origins` computes it.

* `adds_or_keeps`: every line of the new file comes from somewhere.
* `adds_iff`, `keeps_iff`: the list of origins is what `Adds` and `Keeps` say.
-/

namespace PatchLint.Diff

/-- A step of an edit script, with the line that it is about. -/
inductive Edit where
  | keep (line : List Char)
  | remove (line : List Char)
  | add (line : List Char)
  deriving DecidableEq, Repr

namespace Edit

/-- The line in the old file, which an added line is not. -/
def old? : Edit → Option (List Char)
  | .keep line => some line
  | .remove line => some line
  | .add _ => none

/-- The line in the new file, which a removed line is not. -/
def new? : Edit → Option (List Char)
  | .keep line => some line
  | .remove _ => none
  | .add line => some line

end Edit

/-- An edit script: its steps, from the first line on. -/
abbrev Script := List Edit

namespace Script

def oldLines (s : Script) : List (List Char) := s.filterMap Edit.old?

def newLines (s : Script) : List (List Char) := s.filterMap Edit.new?

def Turns (s : Script) (old new : List (List Char)) : Prop :=
  s.oldLines = old ∧ s.newLines = new

/-- The script adds the line that is the `n`th of the new file. -/
def Adds (s : Script) (n : Nat) : Prop :=
  ∃ before line after, s = before ++ .add line :: after ∧ n = (newLines before).length + 1

/-- The script keeps the `i`th line of the old file as the `n`th of the new one. -/
def Keeps (s : Script) (i n : Nat) : Prop :=
  ∃ before line after, s = before ++ .keep line :: after ∧
    i = (oldLines before).length + 1 ∧ n = (newLines before).length + 1

/-- The origins of the new lines, one for each: none if the line was added, else its
number in the old file, where `i` is the number of the next old line. -/
def origins (i : Nat) : Script → List (Option Nat)
  | [] => []
  | .keep _ :: s => some i :: origins (i + 1) s
  | .remove _ :: s => origins (i + 1) s
  | .add _ :: s => none :: origins i s

@[simp] theorem oldLines_nil : oldLines [] = [] := rfl

@[simp] theorem newLines_nil : newLines [] = [] := rfl

@[simp] theorem oldLines_keep (line : List Char) (s : Script) :
    oldLines (.keep line :: s) = line :: oldLines s := rfl

@[simp] theorem oldLines_remove (line : List Char) (s : Script) :
    oldLines (.remove line :: s) = line :: oldLines s := rfl

@[simp] theorem oldLines_add (line : List Char) (s : Script) :
    oldLines (.add line :: s) = oldLines s := rfl

@[simp] theorem newLines_keep (line : List Char) (s : Script) :
    newLines (.keep line :: s) = line :: newLines s := rfl

@[simp] theorem newLines_remove (line : List Char) (s : Script) :
    newLines (.remove line :: s) = newLines s := rfl

@[simp] theorem newLines_add (line : List Char) (s : Script) :
    newLines (.add line :: s) = line :: newLines s := rfl

@[simp] theorem oldLines_append (s t : Script) :
    oldLines (s ++ t) = oldLines s ++ oldLines t := List.filterMap_append

@[simp] theorem newLines_append (s t : Script) :
    newLines (s ++ t) = newLines s ++ newLines t := List.filterMap_append

theorem length_oldLines_keeps (lines : List (List Char)) :
    (oldLines (lines.map .keep)).length = lines.length := by
  induction lines with
  | nil => rfl
  | cons line lines ih => simp [ih]

theorem length_newLines_keeps (lines : List (List Char)) :
    (newLines (lines.map .keep)).length = lines.length := by
  induction lines with
  | nil => rfl
  | cons line lines ih => simp [ih]

/-! ### Origins -/

/-- There is one origin for each new line. -/
@[simp] theorem length_origins (i : Nat) (s : Script) :
    (s.origins i).length = s.newLines.length := by
  induction s generalizing i with
  | nil => rfl
  | cons e s ih => cases e <;> simp [origins, ih]

/-- The origins of a second part are counted behind the old lines of the first. -/
theorem origins_append (i : Nat) (s t : Script) :
    (s ++ t).origins i = s.origins i ++ t.origins (i + s.oldLines.length) := by
  induction s generalizing i with
  | nil => rfl
  | cons e s ih =>
      cases e with
      | keep line => simp [origins, ih, Nat.add_assoc, Nat.add_comm]
      | remove line => simp [origins, ih, Nat.add_assoc, Nat.add_comm]
      | add line => simp [origins, ih]

/-- An added line has no origin. -/
theorem getElem?_origins_add (i : Nat) (before : Script) (line : List Char) (after : Script) :
    ((before ++ .add line :: after).origins i)[before.newLines.length]? = some none := by
  rw [origins_append, List.getElem?_append_right (by simp)]
  simp [origins]

/-- The origin of a kept line is the number of old lines up to it. -/
theorem getElem?_origins_keep (i : Nat) (before : Script) (line : List Char) (after : Script) :
    ((before ++ .keep line :: after).origins i)[before.newLines.length]? =
      some (some (i + before.oldLines.length)) := by
  rw [origins_append, List.getElem?_append_right (by simp)]
  simp [origins]

/-- Every line of the new file was kept or added by a step of the script. -/
theorem exists_step {k : Nat} {s : Script} (inside : k < s.newLines.length) :
    ∃ (before : Script) (line : List Char) (after : Script),
      (s = before ++ .keep line :: after ∨ s = before ++ .add line :: after) ∧
        before.newLines.length = k := by
  induction s generalizing k with
  | nil => simp at inside
  | cons e s ih =>
      cases e with
      | remove removed =>
          obtain ⟨before, line, after, split, rfl⟩ := ih inside
          refine ⟨.remove removed :: before, line, after, ?_, rfl⟩
          exact split.imp (congrArg _) (congrArg _)
      | keep kept =>
          cases k with
          | zero => exact ⟨[], kept, s, .inl rfl, rfl⟩
          | succ k =>
              obtain ⟨before, line, after, split, rfl⟩ := ih (Nat.lt_of_succ_lt_succ inside)
              refine ⟨.keep kept :: before, line, after, ?_, rfl⟩
              exact split.imp (congrArg _) (congrArg _)
      | add added =>
          cases k with
          | zero => exact ⟨[], added, s, .inr rfl, rfl⟩
          | succ k =>
              obtain ⟨before, line, after, split, rfl⟩ := ih (Nat.lt_of_succ_lt_succ inside)
              refine ⟨.add added :: before, line, after, ?_, rfl⟩
              exact split.imp (congrArg _) (congrArg _)

/-- A line of the new file is added by the script or kept as one of the old file. -/
theorem adds_or_keeps {s : Script} {n : Nat} (first : 1 ≤ n) (last : n ≤ s.newLines.length) :
    s.Adds n ∨ ∃ i, s.Keeps i n := by
  obtain ⟨before, line, after, split | split, place⟩ :=
    exists_step (s := s) (k := n - 1) (by omega)
  · exact .inr ⟨_, before, line, after, split, rfl, by omega⟩
  · exact .inl ⟨before, line, after, split, by omega⟩

theorem origin_of_adds {s : Script} {n : Nat} (adds : s.Adds n) :
    (s.origins 1)[n - 1]? = some none := by
  obtain ⟨before, line, after, rfl, rfl⟩ := adds
  exact getElem?_origins_add 1 before line after

theorem origin_of_keeps {s : Script} {i n : Nat} (keeps : s.Keeps i n) :
    (s.origins 1)[n - 1]? = some (some i) := by
  obtain ⟨before, line, after, rfl, rfl, rfl⟩ := keeps
  rw [Nat.add_sub_cancel, getElem?_origins_keep, Nat.add_comm]

/-- **The lines without origin are those that the script adds.** -/
theorem adds_iff {s : Script} {n : Nat} (first : 1 ≤ n) :
    s.Adds n ↔ (s.origins 1)[n - 1]? = some none := by
  constructor
  · exact origin_of_adds
  · intro origin
    have last := (List.getElem?_eq_some_iff.mp origin).1
    rw [length_origins] at last
    rcases adds_or_keeps (s := s) first (by omega) with adds | ⟨i, keeps⟩
    · exact adds
    · rw [origin_of_keeps keeps] at origin
      simp at origin

/-- **The origin of any other line is the one that the script keeps it from.** -/
theorem keeps_iff {s : Script} {i n : Nat} (first : 1 ≤ n) :
    s.Keeps i n ↔ (s.origins 1)[n - 1]? = some (some i) := by
  constructor
  · exact origin_of_keeps
  · intro origin
    have last := (List.getElem?_eq_some_iff.mp origin).1
    rw [length_origins] at last
    rcases adds_or_keeps (s := s) first (by omega) with adds | ⟨j, keeps⟩
    · rw [origin_of_adds adds] at origin
      simp at origin
    · rw [origin_of_keeps keeps] at origin
      have same : j = i := by simpa using origin
      exact same ▸ keeps

/-- The line that is kept stands at both places, and each place is within its file. -/
theorem line_of_keeps {s : Script} {i n : Nat} (keeps : s.Keeps i n) :
    ∃ line, s.oldLines[i - 1]? = some line ∧ s.newLines[n - 1]? = some line ∧
      1 ≤ i ∧ i ≤ s.oldLines.length := by
  obtain ⟨before, line, after, rfl, rfl, rfl⟩ := keeps
  refine ⟨line, ?_, ?_, ?_, ?_⟩
  · simp
  · simp
  · omega
  · simp

end Script

end PatchLint.Diff
