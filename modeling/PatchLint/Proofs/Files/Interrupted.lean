import PatchLint.Proofs.Files.Upward

/-!
Plans that end early.

A plan may end early at any step: because the step fails, or because it is stopped from
outside, in the middle of making directories or of writing a piece. The temporary file may be
removed then or stay.

* `interrupted_of_runAll`: a plan that fails is one that ends early.
* `Interrupted.of_append`: a plan that ends early does so in its front or in its rest.
* `Interrupted.preserves`: what the steps and what stops them preserve holds when a plan has ended
  early.
-/

namespace PatchLint.Files

namespace AtomicWrite

variable {cwd : Location} {t t' : Tree}

/-! ### Plans that end early -/

/-- What a step may leave that fails or is stopped. -/
inductive Step.Stops (cwd : Location) (t : Tree) : Step → Tree → Prop
  | before {step : Step} : Stops cwd t step t
  /-- Some of the missing directories are made, from the top. -/
  | parents {path : String} {above : List (List Char)} :
      (path = "" || t.isThere cwd path) = false → above <:+ Path.ancestors path.toList →
      Stops cwd t (.makeParent path) (t.makeUpward cwd above).2
  /-- The front of a piece is written. -/
  | piece {temporary : String} {offset : Nat} {piece : Octets} {t' : Tree} (count : Nat) :
      t.write cwd temporary offset (piece.take count) = .ok t' →
      Stops cwd t (.write temporary offset piece) t'

/-- What a plan may leave that does not come to its end. -/
inductive Interrupted (cwd : Location) : Tree → List Step → Tree → Prop
  | stopped {t t' : Tree} {step : Step} {rest : List Step} :
      step.Stops cwd t t' → Interrupted cwd t (step :: rest) t'
  | cleaned {t t' : Tree} {step : Step} {rest : List Step} :
      step.Stops cwd t t' → Interrupted cwd t (step :: rest) (step.cleanUp cwd t')
  | later {t t' t'' : Tree} {step : Step} {rest : List Step} :
      step.run cwd t = (.ok (), t') → Interrupted cwd t' rest t'' →
      Interrupted cwd t (step :: rest) t''

/-- A step that succeeds leaves the tree that the operation makes. -/
theorem outcome_eq_ok {fault : Fault → WriteFault} {r : Except Fault Tree}
    (done : outcome t fault r = (.ok (), t')) : r = .ok t' := by
  cases r with
  | error e => cases done
  | ok made =>
      cases done
      rfl

/-- A step that fails leaves the tree as it was. -/
theorem outcome_eq_error {fault : Fault → WriteFault} {r : Except Fault Tree} {e : WriteFault}
    (failed : outcome t fault r = (.error e, t')) : t' = t := by
  cases r with
  | error _ =>
      cases failed
      rfl
  | ok made => cases failed

/-- A directory is there, or it is made with those above it as far as they can be made. -/
theorem Step.makeParent_cases {path : String} {r : Except WriteFault Unit}
    (ran : Step.run cwd t (.makeParent path) = (r, t')) :
    r = .ok () ∧ t' = t ∨ (path = "" || t.isThere cwd path) = false ∧
      t' = (t.makeUpward cwd (Path.ancestors path.toList)).2 := by
  unfold run at ran
  dsimp only at ran
  split at ran
  · cases ran
    exact .inl ⟨rfl, rfl⟩
  · rename_i missing
    exact .inr ⟨Bool.eq_false_iff.mpr missing, (Prod.mk.inj ran).2.symm⟩

/-- A step that fails is one that stops. -/
theorem Step.stops_of_run {step : Step} {e : WriteFault} (failed : step.run cwd t = (.error e, t')) :
    step.Stops cwd t t' := by
  cases step with
  | makeParent path =>
      rcases makeParent_cases failed with ⟨done, -⟩ | ⟨missing, rfl⟩
      · cases done
      · exact .parents missing List.suffix_rfl
  | refuse path =>
      cases failed
      exact .before
  | create temporary =>
      rw [outcome_eq_error failed]
      exact .before
  | write temporary offset piece =>
      rw [outcome_eq_error failed]
      exact .before
  | sync temporary => cases failed
  | replace temporary target =>
      rw [outcome_eq_error failed]
      exact .before

/-- **A plan that fails is one that ends early.** -/
theorem interrupted_of_runAll {steps : List Step} {e : WriteFault}
    (failed : runAll cwd t steps = (.error e, t')) : Interrupted cwd t steps t' := by
  induction steps generalizing t with
  | nil => cases failed
  | cons step rest ih =>
      unfold runAll at failed
      split at failed
      · rename_i middle done
        exact .later done (ih failed)
      · rename_i fault middle stopped
        cases failed
        exact .cleaned (Step.stops_of_run stopped)

/-- A plan that ends early does so in its front, or in its rest after the front came to its
end. -/
theorem Interrupted.of_append {front rest : List Step}
    (interrupted : Interrupted cwd t (front ++ rest) t') :
    Interrupted cwd t front t' ∨
      ∃ middle, runAll cwd t front = (.ok (), middle) ∧ Interrupted cwd middle rest t' := by
  induction front generalizing t with
  | nil => exact .inr ⟨t, rfl, interrupted⟩
  | cons step front ih =>
      cases interrupted with
      | stopped stops => exact .inl (.stopped stops)
      | cleaned stops => exact .inl (.cleaned stops)
      | later done early =>
          rcases ih early with inFront | ⟨middle, ran, inRest⟩
          · exact .inl (.later done inFront)
          · refine .inr ⟨middle, ?_, inRest⟩
            rw [runAll, done]
            exact ran

/-- What every step but the last preserves, and what stops with it, holds when a plan has ended
early. -/
theorem Interrupted.preserves {steps : List Step} (interrupted : Interrupted cwd t steps t')
    (holds : Tree → Prop)
    (runs : ∀ step ∈ steps.dropLast, ∀ t t', holds t → step.run cwd t = (.ok (), t') → holds t')
    (stops : ∀ step ∈ steps, ∀ t t', holds t → step.Stops cwd t t' →
      holds t' ∧ holds (step.cleanUp cwd t'))
    (start : holds t) : holds t' := by
  induction interrupted with
  | stopped stops' => exact (stops _ List.mem_cons_self _ _ start stops').1
  | cleaned stops' => exact (stops _ List.mem_cons_self _ _ start stops').2
  | @later t t' t'' step rest done early ih =>
      cases rest with
      | nil => cases early
      | cons next rest =>
          refine ih (fun step mem => runs step ?_) (fun step mem => stops step ?_) ?_
          · rw [List.dropLast_cons_cons]
            exact List.mem_cons_of_mem _ mem
          · exact List.mem_cons_of_mem _ mem
          · exact runs step (by rw [List.dropLast_cons_cons]; exact List.mem_cons_self) _ _ start done

end AtomicWrite

end PatchLint.Files
