import PatchLint.Proofs.Files.Interleaved
import PatchLint.Proofs.Files.Untorn

/-!
Plans for one target that run at the same time.

All of them write to the same temporary file. As long as no run writes to it, or moves it over
the target, after another run has made it again (`Orderly`), the target is never torn:

* `Sound.turn`: what one turn preserves.
* `whole_of_orderly`: at every point of every such interleaving, the target reads as at the
  beginning or has the whole content of one of the plans.

Nothing keeps the runs in order, so the target can be torn (`not_whole`).
-/

namespace PatchLint.Files.AtomicWrite.Writers

open PatchLint.Files.Tree

variable {ι : Type} {w : Writers ι} {i : ι} {t t' : Tree} {cwd : Location}
  {path temporary dirPath name : String} {pieces : ι → List Octets} {content : Octets}
  {step : Step} {file : Option Location}

/-! ### What a run has still to do -/

/-- What a plan for these pieces has still to do, and what it has written since it made the
temporary file. -/
inductive Stage (path : String) (pieces : List Octets) : List Step → Option Octets → Prop
  | opening {dirPath : List Char} {body : List Step} :
      Path.parent? path.toList = some dirPath → Stage path pieces body none →
      Stage path pieces (.makeParent (String.ofList dirPath) :: body) none
  | refused : Stage path pieces [.refuse path] none
  | drafting {temporary : String} : temporary? path.toList = some temporary →
      Stage path pieces (draft path temporary pieces) none
  | writing {temporary : String} {content : Octets} {more : List Octets} :
      temporary? path.toList = some temporary → content ++ more.flatten = pieces.flatten →
      Stage path pieces
        (writes temporary content.length more ++ [.sync temporary, .replace temporary path])
        (some content)
  | synced {temporary : String} : temporary? path.toList = some temporary →
      Stage path pieces [.replace temporary path] (some pieces.flatten)
  | ended : Stage path pieces [] none

/-- A plan has all its stages before it. -/
theorem stage_steps (path : String) (pieces : List Octets) :
    Stage path pieces (steps path pieces) none := by
  obtain ⟨body, whole, stage⟩ : ∃ body, steps path pieces = AtomicWrite.opening path ++ body ∧
      Stage path pieces body none := by
    cases isTemporary : temporary? path.toList with
    | none => exact ⟨_, steps_eq_refuse isTemporary, .refused⟩
    | some temporary => exact ⟨_, steps_eq_draft isTemporary, .drafting isTemporary⟩
  rw [whole]
  cases parent : Path.parent? path.toList with
  | none =>
      rw [AtomicWrite.opening, parent]
      exact stage
  | some dirPath =>
      rw [AtomicWrite.opening, parent]
      exact .opening parent stage

/-- What is ahead at any stage is one of the steps of the plan. -/
theorem Stage.stepOf {pieces : List Octets} {rest : List Step} {written : Option Octets}
    (stage : Stage path pieces (step :: rest) written) : StepOf path step := by
  generalize whole : step :: rest = all at stage
  cases stage with
  | opening parent =>
      cases whole
      exact .makeParent parent
  | refused =>
      cases whole
      exact .refuse
  | drafting isTemporary =>
      cases whole
      exact .draft isTemporary .create
  | @writing _ _ more isTemporary =>
      cases more with
      | nil =>
          cases whole
          exact .draft isTemporary .sync
      | cons piece more =>
          cases whole
          exact .draft isTemporary (.write _ _)
  | synced isTemporary =>
      cases whole
      exact .draft isTemporary .replace
  | ended => cases whole

/-! ### The temporary file of a run -/

/-- The temporary file is the open one and has this content, or it was removed. -/
structure Owns (t : Tree) (cwd : Location) (file : Option Location)
    (temporary dirPath name : String) (content : Octets) : Prop where
  fits : checkPath temporary = .ok () ∧ (Path.temporaryName name).utf8ByteSize ≤ nameMax
  there : dirPath = "" ∨ t.isDirectory cwd dirPath = true
  entry : ∃ dir, t.Arrives cwd dirPath dir ∧
    (t.entry? (dir ++ [Path.temporaryName name]) = some (.file content) ∧
        file = some (dir ++ [Path.temporaryName name]) ∨
      t.entry? (dir ++ [Path.temporaryName name]) = none ∧ file = none)

theorem Owns.parent (owns : Owns t cwd file temporary dirPath name content) :
    (dirPath = "" || t.isThere cwd dirPath) = true := by
  rcases owns.there with empty | isDirectory
  · rw [empty]
    rfl
  · rw [isThere_of_isDirectory isDirectory, Bool.or_true]

/-- Where another run fails, the temporary file stays or is removed. -/
theorem Owns.cleanUp (owns : Owns t cwd file temporary dirPath name content)
    (settled : t.Settled cwd path) (planned : Planned path temporary dirPath name)
    (stepOf : StepOf path step) :
    Owns (step.cleanUp cwd t) cwd (stillOpen (step.cleanUp cwd t) file)
      temporary dirPath name content := by
  obtain ⟨fits, there, dir, arrives, entry⟩ := owns
  have stays : Owns t cwd (stillOpen t file) temporary dirPath name content := by
    refine ⟨fits, there, dir, arrives, ?_⟩
    rcases entry with ⟨entry, rfl⟩ | ⟨nothing, rfl⟩
    · exact .inl ⟨entry, by simp [stillOpen, entry]⟩
    · exact .inr ⟨nothing, rfl⟩
  cases stepOf with
  | makeParent | refuse => exact stays
  | draft isTemporary drafting =>
      obtain rfl := Option.some.inj (planned.isTemporary.symm.trans isTemporary)
      rcases drafting.cleanUp_cases cwd t with same | removed
      · rw [same]
        exact stays
      · obtain ⟨dir', change, gone⟩ := settled.of_remove planned removed
        obtain rfl := change.arrives.unique arrives
        have passages := change.change.passages
        refine ⟨fits, there.imp_right (isDirectory_mono passages), dir, arrives.mono passages,
          .inr ⟨gone, ?_⟩⟩
        rcases entry with ⟨-, rfl⟩ | ⟨-, rfl⟩
        · simp [stillOpen, gone]
        · rfl

/-! ### Orderly interleavings -/

/-- The step writes to the temporary file or moves it. -/
def UsesFile : Step → Prop
  | .write _ _ _ | .replace _ _ => True
  | _ => False

/-- A run uses the temporary file only if it was the last to make it. -/
def MayTake (w : Writers ι) : Turn ι → Prop
  | .next i => (∃ step ∈ (w.rest i).head?, UsesFile step) → w.creator = some i
  | _ => True

/-- No run uses the temporary file after another run has made it again. -/
def Orderly [DecidableEq ι] (cwd : Location) : Writers ι → List (Turn ι) → Prop
  | _, [] => True
  | w, first :: turns => w.MayTake first ∧ Orderly cwd (w.turn cwd first) turns

/-! ### What every turn preserves -/

/-- What is true of a run: it follows its plan, and if it was the last to make the temporary
file, it still owns it. -/
def Follows (t : Tree) (cwd : Location) (path : String) (pieces : List Octets) (rest : List Step)
    (file : Option Location) (isCreator : Prop) : Prop :=
  ∃ written, Stage path pieces rest written ∧ (isCreator → ∀ content ∈ written,
    ∀ temporary dirPath name, Planned path temporary dirPath name →
      Owns t cwd file temporary dirPath name content)

/-- A run that has nothing written owns nothing. -/
theorem Stage.follows {rest : List Step} {isCreator : Prop} {pieces : List Octets}
    (stage : Stage path pieces rest none) : Follows t cwd path pieces rest file isCreator :=
  ⟨none, stage, fun _ _ => nofun⟩

/-- So does a run that was not the last to make the temporary file. -/
theorem Follows.elsewhere {rest : List Step} {isCreator isCreator' : Prop} {pieces : List Octets}
    (follows : Follows t cwd path pieces rest file isCreator) (notCreator : ¬ isCreator')
    (t' : Tree) (file' : Option Location) :
    Follows t' cwd path pieces rest file' isCreator' := by
  obtain ⟨written, stage, -⟩ := follows
  exact ⟨written, stage, fun created => absurd created notCreator⟩

/-- What is true of the runs at every point, that began with the tree `t`. -/
structure Sound (t : Tree) (cwd : Location) (path : String) (pieces : ι → List Octets)
    (w : Writers ι) : Prop where
  settled : w.tree.Settled cwd path
  target : (w.tree.read cwd path).toOption = (t.read cwd path).toOption ∨
    ∃ i, w.tree.read cwd path = .ok (pieces i).flatten
  follows : ∀ i, Follows w.tree cwd path (pieces i) (w.rest i) (w.file i) (w.creator = some i)

/-- Before their first steps all runs are sound. -/
theorem sound_start (settled : t.Settled cwd path) (pieces : ι → List Octets) :
    Sound t cwd path pieces (start t path pieces) :=
  ⟨settled, .inl rfl, fun i => (stage_steps path (pieces i)).follows⟩

/-- What reads as before is still whole. -/
theorem Sound.target_of_preserves (sound : Sound t cwd path pieces w)
    (preserves : Preserves w.tree t' cwd path) :
    (t'.read cwd path).toOption = (t.read cwd path).toOption ∨
      ∃ i, t'.read cwd path = .ok (pieces i).flatten := by
  refine sound.target.imp (fun same => preserves.same.trans same) (.imp fun i isRead => ?_)
  rw [← toOption_eq_some, preserves.same, isRead]
  rfl

/-- Directories are made only as long as no run owns the temporary file. -/
theorem Sound.ascend (sound : Sound t cwd path pieces w) {dirPath : List Char}
    {above : List (List Char)} (parent : Path.parent? path.toList = some dirPath)
    (missing : (String.ofList dirPath = "" || w.tree.isThere cwd (String.ofList dirPath)) = false)
    (some_above : above <:+ Path.ancestors (String.ofList dirPath).toList) :
    Sound t cwd path pieces { w with tree := (w.tree.makeUpward cwd above).2 } := by
  have preserves := sound.settled.preserves_of_makeUpward parent missing some_above
  refine ⟨preserves.settled, sound.target_of_preserves preserves, fun i => ?_⟩
  obtain ⟨written, stage, owns⟩ := sound.follows i
  refine ⟨written, stage, fun created content mem temporary dirPath' name planned => ?_⟩
  have there := (owns created content mem temporary dirPath' name planned).parent
  obtain rfl := Option.some.inj (parent.symm.trans planned.isParent)
  rw [String.ofList_toList, there] at missing
  cases missing

variable [DecidableEq ι]

/-- A run that fails takes its temporary file away, and the others stay sound. -/
theorem Sound.quit (sound : Sound t cwd path pieces w) (stepOf : StepOf path step) :
    Sound t cwd path pieces (w.quit cwd i step) := by
  have preserves := preserves_of_cleanUp sound.settled stepOf
  refine ⟨preserves.settled, sound.target_of_preserves preserves,
    (Function.forall_update_iff w.rest fun j rest => Follows _ cwd path (pieces j) rest _ _).mpr
      ⟨Stage.ended.follows, fun j _ => ?_⟩⟩
  obtain ⟨written, stage, owns⟩ := sound.follows j
  exact ⟨written, stage, fun created content mem temporary dirPath name planned =>
    (owns created content mem temporary dirPath name planned).cleanUp sound.settled planned stepOf⟩

/-- A run goes on, and the tree stays. -/
theorem Sound.advance {rest : List Step} (sound : Sound t cwd path pieces w)
    (follows : Follows w.tree cwd path (pieces i) rest (w.file i) (w.creator = some i)) :
    Sound t cwd path pieces { w with rest := Function.update w.rest i rest } :=
  ⟨sound.settled, sound.target,
    (Function.forall_update_iff w.rest fun j rest => Follows _ cwd path (pieces j) rest _ _).mpr
      ⟨follows, fun j _ => sound.follows j⟩⟩

/-- What the last creator does is no concern of the others. -/
theorem Sound.of_creator {rest : List Step} {file : ι → Option Location} {creator : Option ι}
    (sound : Sound t cwd path pieces w) (created : creator = some i)
    (settled : t'.Settled cwd path)
    (target : (t'.read cwd path).toOption = (t.read cwd path).toOption ∨
      ∃ i, t'.read cwd path = .ok (pieces i).flatten)
    (follows : Follows t' cwd path (pieces i) rest (file i) True) :
    Sound t cwd path pieces
      { tree := t', rest := Function.update w.rest i rest, file := file, creator := creator } := by
  subst created
  refine ⟨settled, target,
    (Function.forall_update_iff w.rest fun j rest => Follows _ cwd path (pieces j) rest _ _).mpr
      ⟨?_, fun j ne => (sound.follows j).elsewhere (fun same => ne ?_) _ _⟩⟩
  · simpa using follows
  · exact (Option.some.inj same).symm

/-- The run that makes the temporary file owns it. -/
theorem owns_of_create (settled : t.Settled cwd path)
    (planned : Planned path temporary dirPath name) (made : t.create cwd temporary = .ok t') :
    Owns t' cwd (opened? t' cwd temporary) temporary dirPath name [] := by
  obtain ⟨dir, change, empty⟩ := settled.of_create planned made
  have arrives := change.arrives.mono change.change.passages
  refine ⟨change.fits, ?_, dir, arrives, .inl ⟨empty, ?_⟩⟩
  · refine or_iff_not_imp_left.mpr fun named => isDirectory_iff.mpr ⟨?_, dir, arrives⟩
    exact checkPath_prefix change.fits.1 named
      (Path.parent_isPrefix_temporary planned.isTemporary planned.isParent)
  · obtain ⟨loc, resolved⟩ := exists_opened_of_create made
    obtain ⟨dir', arrives', -, ⟨-, same⟩ | ⟨-, same⟩ | ⟨_, -, -, same⟩⟩ :=
      (settled.temporaryChange planned change).of_temporary planned resolved
    · cases same
    · cases same
    · cases same
      obtain rfl := arrives.unique arrives'
      exact opened?_of_resolve resolved

/-- A run makes the temporary file. -/
theorem Sound.create (sound : Sound t cwd path pieces w)
    (isTemporary : temporary? path.toList = some temporary)
    (made : w.tree.create cwd temporary = .ok t') :
    Sound t cwd path pieces
      { tree := t'
        rest := Function.update w.rest i
          (writes temporary 0 (pieces i) ++ [.sync temporary, .replace temporary path])
        file := w.filesAfter cwd i t' (.create temporary)
        creator := some i } := by
  obtain ⟨dirPath, name, planned⟩ := exists_planned isTemporary
  obtain ⟨dir, change, -⟩ := sound.settled.of_create planned made
  have preserves := sound.settled.preserves planned change
  refine sound.of_creator rfl preserves.settled (sound.target_of_preserves preserves)
    ⟨some [], @Stage.writing path (pieces i) temporary [] (pieces i) isTemporary rfl, ?_⟩
  rintro - content ⟨⟩ temporary' dirPath' name' planned'
  obtain rfl := Option.some.inj (isTemporary.symm.trans planned'.isTemporary)
  rw [filesAfter, Function.update_self]
  exact owns_of_create sound.settled planned' made

/-- Writing through the open file changes the temporary file, or nothing if it was removed. -/
theorem Owns.writeAt (owns : Owns t cwd file temporary dirPath name content)
    (settled : t.Settled cwd path) (planned : Planned path temporary dirPath name)
    (piece : Octets) :
    Preserves t (writeAt t file content.length piece) cwd path ∧
      Owns (AtomicWrite.writeAt t file content.length piece) cwd file temporary dirPath name
        (content ++ piece) := by
  obtain ⟨fits, there, dir, arrives, ⟨entry, rfl⟩ | ⟨nothing, rfl⟩⟩ := owns
  · have written : AtomicWrite.writeAt t (some (dir ++ [Path.temporaryName name])) content.length
        piece = t.set (dir ++ [Path.temporaryName name]) (.file (content ++ piece)) := by
      simp only [AtomicWrite.writeAt, entry, overwrite_length]
    rw [written]
    have change : TemporaryChange t _ cwd temporary dirPath name dir :=
      ⟨arrives, fits, fileChange_set (by simp) (fun _ found => ?_) (content ++ piece)⟩
    · have passages := change.change.passages
      exact ⟨settled.preserves planned change, fits, there.imp_right (isDirectory_mono passages),
        dir, arrives.mono passages, .inl ⟨entry?_set_self (by simp) _ _, rfl⟩⟩
    · exact ⟨content, Option.some.inj (found.symm.trans entry)⟩
  · exact ⟨.refl settled, fits, there, dir, arrives, .inr ⟨nothing, rfl⟩⟩

/-- The owner of the temporary file moves the whole content over the target. -/
theorem Owns.replace (owns : Owns t cwd file temporary dirPath name content)
    (settled : t.Settled cwd path) (planned : Planned path temporary dirPath name)
    (moved : t.move cwd temporary path = .ok t') :
    t'.Settled cwd path ∧ t'.read cwd path = .ok content := by
  obtain ⟨fits, there, dir, arrives, ⟨entry, -⟩ | ⟨nothing, -⟩⟩ := owns
  · have holds : Holds t cwd path dirPath name content := ⟨settled, dir, arrives, entry⟩
    exact holds.replace planned moved
  · obtain ⟨place, source, moved⟩ := bind_eq_ok.mp moved
    obtain ⟨dir', arrives', -, ⟨-, rfl⟩ | ⟨isDir, -⟩ | ⟨_, isFile, -⟩⟩ :=
      settled.of_temporary planned source
    · cases moved
    · obtain rfl := arrives.unique arrives'
      cases nothing.symm.trans isDir
    · obtain rfl := arrives.unique arrives'
      cases nothing.symm.trans isFile

/-- The run that made the temporary file writes the next piece to it. -/
theorem Sound.write {piece : Octets} {more : List Octets}
    (sound : Sound t cwd path pieces w) (isTemporary : temporary? path.toList = some temporary)
    (whole : content ++ (piece :: more).flatten = (pieces i).flatten)
    (created : w.creator = some i)
    (owns : ∀ temporary dirPath name, Planned path temporary dirPath name →
      Owns w.tree cwd (w.file i) temporary dirPath name content) :
    Sound t cwd path pieces
      { w with
        tree := AtomicWrite.writeAt w.tree (w.file i) content.length piece
        rest := Function.update w.rest i (writes temporary (content.length + piece.length) more ++
          [.sync temporary, .replace temporary path]) } := by
  obtain ⟨dirPath, name, planned⟩ := exists_planned isTemporary
  obtain ⟨preserves, -⟩ := (owns temporary dirPath name planned).writeAt sound.settled planned piece
  have onward : (content ++ piece) ++ more.flatten = (pieces i).flatten := by
    rw [List.append_assoc, ← List.flatten_cons, whole]
  have stage : Stage path _ _ _ := .writing isTemporary onward
  rw [List.length_append] at stage
  refine sound.of_creator created preserves.settled (sound.target_of_preserves preserves)
    ⟨_, stage, ?_⟩
  rintro - _ ⟨⟩ temporary' dirPath' name' planned'
  exact ((owns temporary' dirPath' name' planned').writeAt sound.settled planned' piece).2

/-- The run that made the temporary file moves it over the target. -/
theorem Sound.replace (sound : Sound t cwd path pieces w)
    (isTemporary : temporary? path.toList = some temporary) (created : w.creator = some i)
    (owns : ∀ temporary dirPath name, Planned path temporary dirPath name →
      Owns w.tree cwd (w.file i) temporary dirPath name (pieces i).flatten)
    (moved : w.tree.move cwd temporary path = .ok t') :
    Sound t cwd path pieces
      { tree := t'
        rest := Function.update w.rest i []
        file := w.filesAfter cwd i t' (.replace temporary path)
        creator := w.creator } := by
  obtain ⟨dirPath, name, planned⟩ := exists_planned isTemporary
  obtain ⟨settled, read⟩ := (owns temporary dirPath name planned).replace sound.settled planned moved
  exact sound.of_creator created settled (.inr ⟨i, read⟩) Stage.ended.follows

/-- **What a step of a run preserves.** -/
theorem Sound.next (sound : Sound t cwd path pieces w) (mayTake : w.MayTake (.next i)) :
    Sound t cwd path pieces (w.next cwd i) := by
  obtain ⟨written, stage, owns⟩ := sound.follows i
  have isCreator : ∀ {step rest}, w.rest i = step :: rest → UsesFile step →
      w.creator = some i := fun ahead uses => mayTake ⟨_, by rw [ahead]; rfl, uses⟩
  generalize ahead : w.rest i = rest at stage
  -- One case for each stage. Only a step that goes through the temporary file needs `mayTake`.
  cases stage with
  | @opening dirPath body parent stage =>
      rw [next_of_step ahead rfl]
      cases ran : Step.run cwd w.tree (.makeParent (String.ofList dirPath)) with
      | mk result t' =>
          have ascended : Sound t cwd path pieces { w with tree := t' } := by
            rcases Step.makeParent_cases ran with ⟨-, rfl⟩ | ⟨missing, rfl⟩
            · exact sound
            · exact sound.ascend parent missing List.suffix_rfl
          cases result with
          | error fault => exact ascended.quit (.makeParent parent)
          | ok _ => exact ascended.advance stage.follows
  | refused =>
      rw [next_of_step ahead rfl]
      exact sound.quit .refuse
  | @drafting temporary isTemporary =>
      rw [next_of_step ahead rfl, Step.run]
      cases made : w.tree.create cwd temporary with
      | error fault => exact sound.quit (.draft isTemporary .create)
      | ok t' => exact sound.create isTemporary made
  | @writing temporary content more isTemporary whole =>
      cases more with
      | nil =>
          rw [next_of_step ahead rfl]
          rw [List.flatten_nil, List.append_nil] at whole
          subst whole
          exact sound.advance ⟨_, .synced isTemporary, owns⟩
      | cons piece more =>
          rw [next_of_write ahead]
          have created := isCreator ahead trivial
          exact sound.write isTemporary whole created (owns created content rfl)
  | @synced temporary isTemporary =>
      rw [next_of_step ahead rfl, Step.run]
      have created := isCreator ahead trivial
      cases moved : w.tree.move cwd temporary path with
      | error fault => exact sound.quit (.draft isTemporary .replace)
      | ok t' => exact sound.replace isTemporary created (owns created _ rfl) moved
  | ended =>
      rw [next_of_nil ahead]
      exact sound

/-- **What a turn preserves.** -/
theorem Sound.turn (sound : Sound t cwd path pieces w) {turn : Turn ι} (mayTake : w.MayTake turn) :
    Sound t cwd path pieces (w.turn cwd turn) := by
  cases turn with
  | next i => exact sound.next mayTake
  | fail i =>
      obtain ⟨written, stage, -⟩ := sound.follows i
      rw [Writers.turn]
      cases ahead : w.rest i with
      | nil => exact sound
      | cons step rest =>
          rw [ahead] at stage
          exact sound.quit stage.stepOf
  | ascend i skipped =>
      obtain ⟨written, stage, -⟩ := sound.follows i
      rw [Writers.turn]
      cases ahead : w.rest i with
      | nil => exact sound
      | cons step rest =>
          rw [ahead] at stage
          cases stage.stepOf with
          | makeParent parent =>
              dsimp only
              split
              · exact sound
              · rename_i missing
                exact sound.ascend parent (Bool.eq_false_iff.mpr missing) (List.drop_suffix _ _)
          | refuse => exact sound
          | draft _ drafting =>
              cases drafting with
              | _ => exact sound

/-- What every orderly interleaving preserves. -/
theorem Sound.run (sound : Sound t cwd path pieces w) {turns : List (Turn ι)}
    (orderly : w.Orderly cwd turns) : Sound t cwd path pieces (w.run cwd turns) := by
  induction turns generalizing w with
  | nil => exact sound
  | cons first turns ih => exact ih (sound.turn orderly.1) orderly.2

/-- **The target is never torn** in an orderly interleaving: it reads as at the beginning, or has
the whole content of one of the plans. -/
theorem whole_of_orderly (settled : t.Settled cwd path) (pieces : ι → List Octets)
    (turns : List (Turn ι)) (orderly : (start t path pieces).Orderly cwd turns) :
    (((start t path pieces).run cwd turns).tree.read cwd path).toOption =
        (t.read cwd path).toOption ∨
      ∃ i, ((start t path pieces).run cwd turns).tree.read cwd path = .ok (pieces i).flatten :=
  ((sound_start settled pieces).run orderly).target

/-! ### Two plans that save the same file -/

def contents (second : Bool) : List Octets := if second then [[3]] else [[2]]

def planOf (content : Octets) : List Step :=
  [.makeParent "", .create ".c.json.tmp", .write ".c.json.tmp" 0 content, .sync ".c.json.tmp",
    .replace ".c.json.tmp" "c.json"]

/-- The first run has taken `first` steps and the second one `second`. -/
def reached (t : Tree) (first second : Nat) (file file' : Option Location)
    (creator : Option Bool) : Writers Bool where
  tree := t
  rest run := cond run ((planOf [3]).drop second) ((planOf [2]).drop first)
  file run := cond run file' file
  creator := creator

/-- Two runs are known by what is ahead of them, the tree and the open files. -/
theorem eq_reached {w : Writers Bool} {first second : Nat}
    (ofFirst : w.rest false = (planOf [2]).drop first)
    (ofSecond : w.rest true = (planOf [3]).drop second) :
    w = reached w.tree first second (w.file false) (w.file true) w.creator := by
  refine Writers.ext rfl (funext fun run => ?_) (funext fun run => ?_) rfl
  · cases run with
    | false => exact ofFirst
    | true => exact ofSecond
  · cases run with
    | false => rfl
    | true => rfl

theorem start_saved : start saved "c.json" contents = reached saved 0 0 none none none :=
  eq_reached (steps_saved [2]) (steps_saved [3])

theorem turn_of_run {w : Writers Bool} {run : Bool} {rest : List Step}
    (ahead : w.rest run = step :: rest)
    (byPath : isWrite step = false)
    (ran : step.run [] w.tree = (.ok (), t)) :
    w.turn [] (.next run) =
      { tree := t
        rest := Function.update w.rest run rest
        file := w.filesAfter [] run t step
        creator := w.creatorAfter run step } := by
  rw [turn, next_of_step ahead byPath, ran]

/-- The temporary file, open. -/
def opened : Option Location := some [".c.json.tmp"]

theorem opened?_savedWith (piece : Octets) :
    opened? (savedWith piece) [] ".c.json.tmp" = opened :=
  opened?_of_resolve (resolve_savedWith piece)

theorem run_create_saved :
    (Step.create ".c.json.tmp").run [] saved = (.ok (), savedWith []) := by
  rw [Step.run, create_saved]
  rfl

theorem run_create_savedWith (piece : Octets) :
    (Step.create ".c.json.tmp").run [] (savedWith piece) = (.ok (), savedWith []) := by
  rw [Step.run, Tree.create, resolve_savedWith]
  rfl

theorem run_replace_savedWith (piece : Octets) :
    (Step.replace ".c.json.tmp" "c.json").run [] (savedWith piece) =
      (.ok (), ⟨[(["c.json"], .file piece)]⟩) := by
  rw [Step.run, move_savedWith]
  rfl

/-- The turns are orderly, and lead to these runs. -/
def Reaches (w : Writers ι) (cwd : Location) (turns : List (Turn ι)) (w' : Writers ι) : Prop :=
  w.Orderly cwd turns ∧ w.run cwd turns = w'

theorem reaches_nil (w : Writers ι) : Reaches w cwd [] w := ⟨trivial, rfl⟩

/-- A turn that is orderly leads on to what the others lead to. -/
theorem reaches_cons {w w' w'' : Writers ι} {rest : List Step} {turns : List (Turn ι)}
    (ahead : w.rest i = step :: rest) (uses : UsesFile step → w.creator = some i)
    (turned : w.turn cwd (.next i) = w') (onward : Reaches w' cwd turns w'') :
    Reaches w cwd (.next i :: turns) w'' := by
  subst turned
  refine ⟨⟨?_, onward.1⟩, onward.2⟩
  rintro ⟨other, mem, isUse⟩
  rw [ahead] at mem
  cases mem
  exact uses isUse

/-- The first run writes its content, and then the second makes the temporary file again. -/
def torn : List (Turn Bool) :=
  [.next false, .next false, .next false, .next false, .next true, .next true]

/-- The torn turns come in front of any that go on from there. -/
theorem reaches_torn {w : Writers Bool} {turns : List (Turn Bool)}
    (onward : Reaches (reached (savedWith []) 4 2 opened opened (some true)) [] turns w) :
    Reaches (start saved "c.json" contents) [] (torn ++ turns) w := by
  have first₁ : (reached saved 0 0 none none none).turn [] (.next false) =
      reached saved 1 0 none none none := by
    exact (turn_of_run rfl rfl rfl).trans (eq_reached rfl rfl)
  have first₂ : (reached saved 1 0 none none none).turn [] (.next false) =
      reached (savedWith []) 2 0 opened none (some false) := by
    refine (turn_of_run rfl rfl run_create_saved).trans ?_
    rw [filesAfter, opened?_savedWith]
    exact eq_reached rfl rfl
  have first₃ : (reached (savedWith []) 2 0 opened none (some false)).turn [] (.next false) =
      reached (savedWith [2]) 3 0 opened none (some false) := by
    rw [turn, next_of_write rfl]
    exact eq_reached rfl rfl
  have first₄ : (reached (savedWith [2]) 3 0 opened none (some false)).turn [] (.next false) =
      reached (savedWith [2]) 4 0 opened none (some false) := by
    exact (turn_of_run rfl rfl rfl).trans (eq_reached rfl rfl)
  have second₁ : (reached (savedWith [2]) 4 0 opened none (some false)).turn [] (.next true) =
      reached (savedWith [2]) 4 1 opened none (some false) := by
    exact (turn_of_run rfl rfl rfl).trans (eq_reached rfl rfl)
  have second₂ : (reached (savedWith [2]) 4 1 opened none (some false)).turn [] (.next true) =
      reached (savedWith []) 4 2 opened opened (some true) := by
    refine (turn_of_run rfl rfl (run_create_savedWith [2])).trans ?_
    rw [filesAfter, opened?_savedWith]
    exact eq_reached rfl rfl
  -- Only the write goes through the temporary file, and its run has made it.
  rw [start_saved]
  exact reaches_cons rfl False.elim first₁ <| reaches_cons rfl False.elim first₂ <|
    reaches_cons rfl (fun _ => rfl) first₃ <| reaches_cons rfl False.elim first₄ <|
    reaches_cons rfl False.elim second₁ <| reaches_cons rfl False.elim second₂ onward

/-- The file that a run moves over the target is read there. -/
theorem read_of_replace {w : Writers Bool} {run : Bool} {content : Octets}
    (ahead : w.rest run = [.replace ".c.json.tmp" "c.json"])
    (holds : w.tree = savedWith content) :
    (w.turn [] (.next run)).tree.read [] "c.json" = .ok content := by
  have ran := run_replace_savedWith content
  rw [← holds] at ran
  rw [turn_of_run ahead rfl ran]
  exact read_eq_ok_iff.mpr ⟨_, spells_saved.resolve (.file (by decide) (by decide) rfl)⟩

/-- The second run goes on alone, and the target has its content. -/
theorem whole_of_orderly_second :
    let w := start saved "c.json" contents
    let turns := torn ++ [.next true, .next true, .next true]
    saved.Settled [] "c.json" ∧ w.Orderly [] turns ∧
      (w.run [] turns).tree.read [] "c.json" = .ok [3] ∧
      (((w.run [] turns).tree.read [] "c.json").toOption = (saved.read [] "c.json").toOption ∨
        ∃ i, (w.run [] turns).tree.read [] "c.json" = .ok (contents i).flatten) := by
  have settled : saved.Settled [] "c.json" := plain_saved.settled (.inr (by decide +kernel))
  have second₃ : (reached (savedWith []) 4 2 opened opened (some true)).turn [] (.next true) =
      reached (savedWith [3]) 4 3 opened opened (some true) := by
    rw [turn, next_of_write rfl]
    exact eq_reached rfl rfl
  have second₄ : (reached (savedWith [3]) 4 3 opened opened (some true)).turn [] (.next true) =
      reached (savedWith [3]) 4 4 opened opened (some true) := by
    exact (turn_of_run rfl rfl rfl).trans (eq_reached rfl rfl)
  obtain ⟨orderly, ran⟩ := reaches_torn <| reaches_cons rfl (fun _ => rfl) second₃ <|
    reaches_cons rfl False.elim second₄ <| reaches_cons rfl (fun _ => rfl) rfl (reaches_nil _)
  refine ⟨settled, orderly, ?_, whole_of_orderly settled contents _ orderly⟩
  rw [ran]
  exact read_of_replace rfl rfl

/-- The temporary path is a link to the target. -/
def linkedOver : Tree := ⟨[(["c.json"], .file [1]), ([".c.json.tmp"], .link "c.json")]⟩

/-- **Runs must be orderly, and the tree settled.** Where the second run has made the temporary
file again when the first moves it, the target is empty; and where the temporary path is a link to
the target, nothing can be read after the first run. -/
theorem not_whole :
    ((start saved "c.json" contents).run [] (torn ++ [.next false])).tree.read [] "c.json" =
        .ok [] ∧
      (((start linkedOver "c.json" contents).run []
        (List.replicate 5 (.next false))).tree.read [] "c.json").toOption = none := by
  constructor
  · obtain ⟨-, ran⟩ := reaches_torn (reaches_nil _)
    rw [List.append_nil] at ran
    rw [run_append, ran, run_cons, run_nil]
    exact read_of_replace rfl rfl
  · have create : linkedOver.create [] ".c.json.tmp" = .ok (linkedTo []) := by
      rw [Tree.create, spells_savedWith.resolve (.link (by decide) (by decide) rfl (.inr (.inl rfl))
        (.file (by decide) (by decide) rfl))]
      rfl
    have alone := tree_run_alone linkedOver [] "c.json" contents false
    rw [show contents false = [[2]] from rfl, runAll_linkedTo create [2], steps_saved] at alone
    change ((start linkedOver "c.json" contents).run [] (List.replicate 5 (.next false))).tree =
      looped at alone
    rw [alone]
    exact read_looped

end PatchLint.Files.AtomicWrite.Writers
