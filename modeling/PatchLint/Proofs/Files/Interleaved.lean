import Mathlib.Logic.Function.Basic
import PatchLint.Proofs.Files.Replaced

/-!
Plans that run at the same time, on one tree.

Each run takes the steps of its own plan, in any order with those of the others. It writes
through the file that it has opened, wherever this lies by then: a file that another run moves
is written at its new place, and one that is removed or replaced is written nowhere. The other
steps go by their paths.

* `Writers.tree_run_alone`: a run that is alone does what its plan does.
-/

namespace PatchLint.Files.AtomicWrite

open PatchLint.Files.Tree

/-! ### Open files -/

variable {t t' : Tree} {cwd loc : Location} {path temporary : String} {place : Place}

/-- Where a path ends, be something there or not. -/
def placed? (t : Tree) (cwd : Location) (path : String) : Option Location :=
  match t.resolveKept cwd path with
  | .ok (.taken loc _) | .ok (.free loc _) => some loc
  | .error _ => none

/-- Where the file lies that a path leads to. -/
def opened? (t : Tree) (cwd : Location) (path : String) : Option Location :=
  (t.find cwd path).toOption.map Prod.fst

/-- Writes a piece into an open file, if it still lies in the tree. -/
def writeAt (t : Tree) (file : Option Location) (offset : Nat) (piece : Octets) : Tree :=
  match file with
  | none => t
  | some loc =>
    match t.entry? loc with
    | some (.file content) => t.set loc (.file (overwrite content offset piece))
    | _ => t

/-- The open file, if it still lies in the tree. -/
def stillOpen (t : Tree) (file : Option Location) : Option Location :=
  file.filter fun loc => (t.entry? loc).isSome

/-- Plans that run at the same time. -/
@[ext] structure Writers (ι : Type) where
  tree : Tree
  /-- The steps that a run has still to take. -/
  rest : ι → List Step
  /-- Where the file lies that a run has opened. -/
  file : ι → Option Location
  /-- The run that was the last to make the temporary file. -/
  creator : Option ι

inductive Turn (ι : Type) where
  /-- A run takes its next step. -/
  | next (run : ι)
  /-- The next step of a run fails. -/
  | fail (run : ι)
  /-- A run makes some of the directories that it is about to make. -/
  | ascend (run : ι) (skipped : Nat)
  deriving DecidableEq, Repr

namespace Writers

variable {ι : Type} [DecidableEq ι]

def start (t : Tree) (path : String) (pieces : ι → List Octets) : Writers ι where
  tree := t
  rest i := steps path (pieces i)
  file _ := none
  creator := none

/-- A run has failed at a step and removed its temporary file. -/
def quit (w : Writers ι) (cwd : Location) (i : ι) (step : Step) : Writers ι :=
  let t := step.cleanUp cwd w.tree
  { w with
    tree := t
    rest := Function.update w.rest i []
    file := fun j => stillOpen t (w.file j) }

/-- Where the open files lie when a run has taken a step, after which the tree is `t`. A file
that is replaced lies nowhere. -/
def filesAfter (w : Writers ι) (cwd : Location) (i : ι) (t : Tree) : Step → ι → Option Location
  | .create temporary => Function.update w.file i (opened? t cwd temporary)
  | .replace temporary target => fun j =>
    if w.file j = placed? w.tree cwd temporary then placed? w.tree cwd target
    else if w.file j = placed? w.tree cwd target then none
    else w.file j
  | _ => w.file

/-- Which run was the last to make the temporary file when a run has taken a step. -/
def creatorAfter (w : Writers ι) (i : ι) : Step → Option ι
  | .create _ => some i
  | _ => w.creator

def next (w : Writers ι) (cwd : Location) (i : ι) : Writers ι :=
  match w.rest i with
  | [] => w
  | .write _ offset piece :: rest =>
    { w with
      tree := writeAt w.tree (w.file i) offset piece
      rest := Function.update w.rest i rest }
  | step :: rest =>
    match step.run cwd w.tree with
    | (.ok _, t) =>
      { tree := t
        rest := Function.update w.rest i rest
        file := w.filesAfter cwd i t step
        creator := w.creatorAfter i step }
    | (.error _, t) => quit { w with tree := t } cwd i step

def turn (cwd : Location) (w : Writers ι) : Turn ι → Writers ι
  | .next i => w.next cwd i
  | .fail i =>
    match w.rest i with
    | [] => w
    | step :: _ => w.quit cwd i step
  | .ascend i skipped =>
    match w.rest i with
    | .makeParent path :: _ =>
      if path = "" || w.tree.isThere cwd path then w
      else { w with tree := (w.tree.makeUpward cwd ((Path.ancestors path.toList).drop skipped)).2 }
    | _ => w

def run (cwd : Location) (w : Writers ι) (turns : List (Turn ι)) : Writers ι :=
  turns.foldl (turn cwd) w

@[simp] theorem run_nil (w : Writers ι) : w.run cwd [] = w := rfl

theorem run_cons (w : Writers ι) (first : Turn ι) (turns : List (Turn ι)) :
    w.run cwd (first :: turns) = (w.turn cwd first).run cwd turns := rfl

theorem run_append (w : Writers ι) (front turns : List (Turn ι)) :
    w.run cwd (front ++ turns) = (w.run cwd front).run cwd turns := List.foldl_append

variable {w : Writers ι} {i : ι} {step : Step} {rest : List Step}

/-- The step goes through the open file. -/
def isWrite : Step → Bool
  | .write _ _ _ => true
  | _ => false

/-- A run that has come to its end takes no further step. -/
theorem next_of_nil (ended : w.rest i = []) : w.next cwd i = w := by
  rw [next, ended]

/-- A piece is written into the file that was opened, wherever its path leads by now. -/
theorem next_of_write {offset : Nat} {piece : Octets}
    (ahead : w.rest i = .write temporary offset piece :: rest) :
    w.next cwd i = { w with
      tree := writeAt w.tree (w.file i) offset piece
      rest := Function.update w.rest i rest } := by
  rw [next, ahead]

/-- A step goes by its paths, unless it is one that writes. -/
theorem next_of_step (ahead : w.rest i = step :: rest) (byPath : isWrite step = false) :
    w.next cwd i =
      match step.run cwd w.tree with
      | (.ok _, t) =>
        { tree := t
          rest := Function.update w.rest i rest
          file := w.filesAfter cwd i t step
          creator := w.creatorAfter i step }
      | (.error _, t) => quit { w with tree := t } cwd i step := by
  rw [next, ahead]
  cases step with
  | write temporary offset piece => cases byPath
  | _ => rfl

/-! ### A run that is alone -/

theorem run_of_nil (ended : w.rest i = []) (count : Nat) :
    w.run cwd (List.replicate count (.next i)) = w := by
  induction count with
  | zero => rfl
  | succ count ih =>
      rw [List.replicate_succ, run_cons, turn, next_of_nil ended, ih]

/-- What a step does to the tree that does not write is what it does in its plan. -/
theorem tree_run_of_step (ahead : w.rest i = step :: rest) (byPath : isWrite step = false)
    (onward : ∀ t (w' : Writers ι), step.run cwd w.tree = (.ok (), t) → w'.tree = t → w'.rest i = rest →
      w'.file i = w.filesAfter cwd i t step i →
      (w'.run cwd (List.replicate rest.length (.next i))).tree = (runAll cwd t rest).2) :
    (w.run cwd (List.replicate (step :: rest).length (.next i))).tree =
      (runAll cwd w.tree (step :: rest)).2 := by
  rw [List.length_cons, List.replicate_succ, run_cons, turn, next_of_step ahead byPath, runAll]
  cases ran : step.run cwd w.tree with
  | mk result t =>
      cases result with
      | ok _ => exact onward t _ ran rfl (Function.update_self ..) rfl
      | error fault =>
          dsimp only
          rw [run_of_nil (Function.update_self ..)]
          rfl

end Writers

/-- A file that is put where a path leads is what the path leads to. -/
theorem resolve_set_file (resolved : t.resolve cwd path = .ok place) (forFile : place.ForFile loc)
    (content : Octets) : loc ≠ [] ∧
      (t.set loc (.file content)).resolve cwd path = .ok (.taken loc (.file content)) := by
  obtain ⟨checked, walks⟩ := placeOf_eq_ok_iff.mp resolved
  have there : ∀ entry, t.entry? loc = some entry → ∃ content, entry = .file content := by
    intro entry found
    cases forFile with
    | taken content => exact ⟨content, Option.some.inj (found.symm.trans walks.entry?_of_file)⟩
    | free => cases walks.of_free.1.symm.trans found
  have below : loc ≠ [] := by
    rintro rfl
    obtain ⟨content, isFile⟩ := there .dir rfl
    cases isFile
  refine ⟨below, ?_⟩
  obtain ⟨place', resolved', forFile', -⟩ :=
    (fileChange_set below there content).resolve resolved forFile
  have walks' := (placeOf_eq_ok_iff.mp resolved').2
  have put := entry?_set_self below t (.file content)
  cases forFile' with
  | taken other =>
      cases walks'.entry?_of_file.symm.trans put
      exact resolved'
  | free => cases walks'.of_free.1.symm.trans put

/-- Opening a path opens the file that it leads to. -/
theorem opened?_of_resolve {entry : Entry} (resolved : t.resolve cwd path = .ok (.taken loc entry)) :
    opened? t cwd path = some loc := by
  rw [opened?, find, resolved]
  rfl

/-- A file that was made is at the end of its path, and empty. -/
theorem exists_opened_of_create (made : t.create cwd path = .ok t') :
    ∃ loc, t'.resolve cwd path = .ok (.taken loc (.file [])) := by
  obtain ⟨place, resolved, made⟩ := bind_eq_ok.mp made
  cases place with
  | taken loc entry =>
      cases entry with
      | file content =>
          cases made
          exact ⟨loc, (resolve_set_file resolved (.taken content) []).2⟩
      | dir | link => cases made
  | free loc kind =>
      cases kind with
      | false =>
          cases made
          exact ⟨loc, (resolve_set_file resolved .free []).2⟩
      | true => cases made

namespace Writers

variable {ι : Type} [DecidableEq ι] {w : Writers ι} {i : ι} {pieces : List Octets} {offset : Nat}
  {content : Octets} {rest : List Step}

/-- Writing through an open file is writing at the path that leads there. -/
theorem tree_run_writes (opened : w.file i = some loc)
    (resolved : w.tree.resolve cwd temporary = .ok (.taken loc (.file content)))
    (isRest : rest = writes temporary offset pieces ++ [.sync temporary, .replace temporary path])
    (ahead : w.rest i = rest) :
    (w.run cwd (List.replicate rest.length (.next i))).tree = (runAll cwd w.tree rest).2 := by
  induction pieces generalizing w offset content rest with
  | nil =>
      subst isRest
      refine tree_run_of_step ahead rfl fun t w' synced sameTree ahead' _ => ?_
      cases synced
      rw [← sameTree]
      exact tree_run_of_step ahead' rfl fun _ _ _ sameTree _ _ => sameTree
  | cons piece pieces ih =>
      subst isRest
      have there := (placeOf_eq_ok_iff.mp resolved).2.entry?_of_file
      have written : writeAt w.tree (w.file i) offset piece =
          w.tree.set loc (.file (overwrite content offset piece)) := by
        simp only [writeAt, opened, there]
      have ran : (Step.write temporary offset piece).run cwd w.tree =
          (.ok (), w.tree.set loc (.file (overwrite content offset piece))) := by
        rw [Step.run, Tree.write, find, resolved]
        rfl
      rw [writes, List.cons_append, List.length_cons, List.replicate_succ, run_cons, turn,
        next_of_write ahead, runAll_cons_of_ok ran, written]
      exact ih opened (resolve_set_file resolved (.taken content) _).2 rfl
        (Function.update_self ..)

/-- A run that is alone does what its plan does. -/
theorem tree_run_draft (ahead : w.rest i = draft path temporary pieces) :
    (w.run cwd (List.replicate (draft path temporary pieces).length (.next i))).tree =
      (runAll cwd w.tree (draft path temporary pieces)).2 := by
  refine tree_run_of_step ahead rfl fun t w' ran sameTree ahead' file => ?_
  obtain ⟨loc, resolved⟩ := exists_opened_of_create (outcome_eq_ok ran)
  have opened : w'.file i = some loc := by
    rw [file, filesAfter, Function.update_self, opened?_of_resolve resolved]
  rw [← sameTree] at resolved ⊢
  exact tree_run_writes opened resolved rfl ahead'

/-- **A run that is alone** does what its plan does. -/
theorem tree_run_alone (t : Tree) (cwd : Location) (path : String) (pieces : ι → List Octets)
    (i : ι) :
    ((start t path pieces).run cwd
      (List.replicate (steps path (pieces i)).length (.next i))).tree =
      (runAll cwd t (steps path (pieces i))).2 := by
  obtain ⟨body, whole, onward⟩ : ∃ body, steps path (pieces i) = opening path ++ body ∧
      ∀ w : Writers ι, w.rest i = body →
        (w.run cwd (List.replicate body.length (.next i))).tree = (runAll cwd w.tree body).2 := by
    cases isTemporary : temporary? path.toList with
    | none =>
        exact ⟨_, steps_eq_refuse isTemporary, fun w ahead =>
          tree_run_of_step ahead rfl fun t w' refused => by cases refused⟩
    | some temporary => exact ⟨_, steps_eq_draft isTemporary, fun w ahead => tree_run_draft ahead⟩
  have ahead : (start t path pieces).rest i = opening path ++ body := whole
  rw [whole]
  cases parent : Path.parent? path.toList with
  | none =>
      rw [opening, parent] at ahead ⊢
      exact onward _ ahead
  | some dirPath =>
      rw [opening, parent] at ahead ⊢
      refine tree_run_of_step ahead rfl fun t w' ran sameTree ahead' _ => ?_
      rw [← sameTree]
      exact onward w' ahead'

end Writers

end PatchLint.Files.AtomicWrite
