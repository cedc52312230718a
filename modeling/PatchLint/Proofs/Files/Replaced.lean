import PatchLint.Proofs.Files.Settled

/-!
Plans that replace the content of a file.

In a settled tree, no step of a plan but the last changes what is read at the target.

* `preserves_of_interrupted`: the target of a plan that ends early reads as before.
* `read_of_runAll`: the target of a plan that comes to its end has the new content.
-/

namespace PatchLint.Files.AtomicWrite

open PatchLint.Files.Tree

variable {t t' : Tree} {cwd : Location} {path temporary : String} {pieces : List Octets}

/-! ### Plans -/

/-- The steps of a plan before the temporary file is made. -/
def opening (path : String) : List Step :=
  ((Path.parent? path.toList).map fun p => Step.makeParent (String.ofList p)).toList

/-- The part of a plan that comes after the directories are made. -/
def draft (path temporary : String) (pieces : List Octets) : List Step :=
  .create temporary :: writes temporary 0 pieces ++ [.sync temporary, .replace temporary path]

/-- A plan with a temporary path makes the directory first, and then the draft. -/
theorem steps_eq_draft (isTemporary : temporary? path.toList = some temporary) :
    steps path pieces = opening path ++ draft path temporary pieces := by
  rw [steps, isTemporary]
  rfl

/-- A path without a temporary path is refused once the directories are made. -/
theorem steps_eq_refuse (unnamed : temporary? path.toList = none) :
    steps path pieces = opening path ++ [.refuse path] := by
  rw [steps, unnamed]
  rfl

/-- The steps of a plan for a whole content. -/
theorem steps_eq (dirPath temporary : String) (parent : Path.parent? path.toList = some dirPath.toList)
    (isTemporary : temporary? path.toList = some temporary) (content : Octets) :
    steps path [content] = [.makeParent dirPath, .create temporary, .write temporary 0 content,
      .sync temporary, .replace temporary path] := by
  unfold steps
  rw [parent, isTemporary, Option.map_some, String.ofList_toList]
  rfl

/-- A piece at the end of a content is appended to it. -/
theorem overwrite_length (content piece : Octets) :
    overwrite content content.length piece = content ++ piece := by
  simp [overwrite]

/-- What is written to an empty file is its content. -/
theorem write_whole {loc : Location} {temporary : String} {content : Octets}
    (found : t.resolve cwd temporary = .ok (.taken loc (.file []))) :
    t.write cwd temporary 0 content = .ok (t.set loc (.file content)) := by
  have same : overwrite [] 0 content = content := overwrite_length [] content
  rw [Tree.write, find, found]
  change Except.ok (t.set loc (.file (overwrite [] 0 content))) = _
  rw [same]

/-- A plan comes to its end if every change of its can be made. -/
theorem runAll_steps (dirPath temporary : String) {created written moved : Tree} {content : Octets}
    (parent : Path.parent? path.toList = some dirPath.toList)
    (isTemporary : temporary? path.toList = some temporary)
    (there : (dirPath = "" || t.isThere cwd dirPath) = true)
    (create : t.create cwd temporary = .ok created)
    (write : created.write cwd temporary 0 content = .ok written)
    (move : written.move cwd temporary path = .ok moved) :
    runAll cwd t (steps path [content]) = (.ok (), moved) := by
  have made : Step.run cwd t (.makeParent dirPath) = (.ok (), t) := if_pos there
  rw [steps_eq _ _ parent isTemporary, runAll, made]
  dsimp only
  rw [runAll, Step.run, create]
  dsimp only [outcome]
  rw [runAll, Step.run, write]
  dsimp only [outcome]
  rw [runAll, Step.run]
  dsimp only
  rw [runAll, Step.run, move]
  rfl

/-- A directory that is missing is made, also if the path goes up again. -/
theorem run_makeParent_up (above : String) {name up : String} (isUp : Spells up [name, ".."])
    (spells : Spells above [name]) (ancestors : [up.toList, above.toList] <+: Path.ancestors up.toList)
    (isName : IsName name) (short : name.utf8ByteSize ≤ nameMax) (nothing : t.entry? [name] = none) :
    Step.run [] t (.makeParent up) = (.ok (), t.set [name] .dir) := by
  obtain ⟨more, ancestors⟩ := ancestors
  -- Until `name` is made, nothing behind it is found, not even by going up again.
  have missing (follow : Bool) : t.walk follow linkMax false [] [name, ".."] = .error .notFound :=
    walk_none isName short nothing
  have notThere : t.isThere [] up = false := by
    rw [isThere, find, isUp.resolve_eq, startOf_root, missing]
    rfl
  have first : t.makeDirectory [] up = .error .notFound := by
    rw [makeDirectory, isUp.resolveKept_eq, startOf_root, missing]
    rfl
  have second : t.makeDirectory [] above = .ok (t.set [name] .dir) := by
    have free : t.Walks false linkMax false (startOf [] above) [name] (.free [name] false) := by
      rw [startOf_root]
      exact .free isName short nothing
    rw [makeDirectory, spells.resolveKept free]
    rfl
  have walks (follow : Bool) : (t.set [name] .dir).Walks follow linkMax false (startOf [] up)
      [name, ".."] (.taken [] .dir) := by
    rw [startOf_root]
    exact .down isName short (entry?_set_self (List.cons_ne_nil _ _) t .dir) (.up .stop)
  -- Then the path is that of the root, which is a directory, so it will do.
  have again : (t.set [name] .dir).makeDirectory [] up = .error .exists := by
    rw [makeDirectory, isUp.resolveKept (walks _)]
    rfl
  have isDirectory : (t.set [name] .dir).isDirectory [] up = true := by
    rw [Tree.isDirectory, find, isUp.resolve (walks _)]
    rfl
  have upward : t.makeUpward [] ([up.toList, above.toList] ++ more) =
      (.ok (), t.set [name] .dir) := by
    simp only [List.cons_append, makeUpward, String.ofList_toList, first, second, again,
      isDirectory, isUp.1.2.1, spells.1.2.1, if_true, if_false]
  have named : (up = "" || false) = false := by
    rw [Bool.or_false, decide_eq_false_iff_not]
    exact isUp.1.2.1
  rw [Step.run, notThere, makeDirectories, ← ancestors, upward, named]
  rfl

/-! ### Plans in settled trees -/

/-- Writing a content takes nothing but writes of pieces. -/
theorem mem_writes {temporary : String} {step : Step} {offset : Nat}
    (mem : step ∈ writes temporary offset pieces) :
    ∃ offset piece, step = .write temporary offset piece := by
  induction pieces generalizing offset with
  | nil => cases mem
  | cons piece pieces ih =>
      rcases List.mem_cons.mp mem with rfl | mem
      · exact ⟨offset, piece, rfl⟩
      · exact ih mem

/-- The steps that come after the directories are made. -/
inductive Drafting (path temporary : String) : Step → Prop
  | create : Drafting path temporary (.create temporary)
  | write (offset : Nat) (piece : Octets) :
      Drafting path temporary (.write temporary offset piece)
  | sync : Drafting path temporary (.sync temporary)
  | replace : Drafting path temporary (.replace temporary path)

theorem drafting_of_mem {step : Step} (mem : step ∈ draft path temporary pieces) :
    Drafting path temporary step := by
  rcases List.mem_append.mp mem with mem | mem
  · rcases List.mem_cons.mp mem with rfl | mem
    · exact .create
    · obtain ⟨offset, piece, rfl⟩ := mem_writes mem
      exact .write offset piece
  · rcases List.mem_cons.mp mem with rfl | mem
    · exact .sync
    · obtain rfl := List.mem_singleton.mp mem
      exact .replace

/-- The steps that a plan for the path can have. -/
inductive StepOf (path : String) : Step → Prop
  | makeParent {dir : List Char} : Path.parent? path.toList = some dir →
      StepOf path (.makeParent (String.ofList dir))
  | refuse : StepOf path (.refuse path)
  | draft {temporary : String} {step : Step} : temporary? path.toList = some temporary →
      Drafting path temporary step → StepOf path step

theorem mem_opening {step : Step} (mem : step ∈ opening path) :
    ∃ dir, Path.parent? path.toList = some dir ∧ step = .makeParent (String.ofList dir) := by
  obtain ⟨dir, parent, rfl⟩ := Option.map_eq_some_iff.mp (Option.mem_toList.mp mem)
  exact ⟨dir, parent, rfl⟩

/-- Every step of a plan is one that plans for the path can have. -/
theorem stepOf_of_mem {step : Step} (mem : step ∈ steps path pieces) : StepOf path step := by
  have inOpening (mem : step ∈ opening path) : StepOf path step := by
    obtain ⟨dir, parent, rfl⟩ := mem_opening mem
    exact .makeParent parent
  cases isTemporary : temporary? path.toList with
  | none =>
      rw [steps_eq_refuse isTemporary] at mem
      rcases List.mem_append.mp mem with mem | mem
      · exact inOpening mem
      · rw [List.mem_singleton.mp mem]
        exact .refuse
  | some temporary =>
      rw [steps_eq_draft isTemporary] at mem
      rcases List.mem_append.mp mem with mem | mem
      · exact inOpening mem
      · exact .draft isTemporary (drafting_of_mem mem)

/-- The target is replaced last. -/
theorem replace_notMem_dropLast (temporary target : String) :
    Step.replace temporary target ∉ (steps path pieces).dropLast := by
  intro mem
  unfold steps at mem
  rw [List.dropLast_append_of_ne_nil (by split <;> simp)] at mem
  rcases List.mem_append.mp mem with mem | mem
  · obtain ⟨dir, -, same⟩ := Option.map_eq_some_iff.mp (Option.mem_toList.mp mem)
    cases same
  · split at mem
    · cases mem
    · rw [List.dropLast_append_of_ne_nil (List.cons_ne_nil _ _)] at mem
      rcases List.mem_append.mp mem with mem | mem
      · rcases List.mem_cons.mp mem with same | mem
        · cases same
        · obtain ⟨offset, piece, same⟩ := mem_writes mem
          cases same
      · cases List.mem_singleton.mp mem

/-- A step before the last leaves a settled tree settled. -/
theorem preserves_of_run {step : Step} (settled : t.Settled cwd path) (stepOf : StepOf path step)
    (notLast : ∀ temporary target, step ≠ .replace temporary target)
    (done : step.run cwd t = (.ok (), t')) : Preserves t t' cwd path := by
  cases stepOf with
  | makeParent parent =>
      rcases Step.makeParent_cases done with ⟨-, rfl⟩ | ⟨missing, rfl⟩
      · exact .refl settled
      · exact settled.preserves_of_makeUpward parent missing List.suffix_rfl
  | refuse => cases done
  | draft isTemporary drafting =>
      obtain ⟨dirPath, name, planned⟩ := exists_planned isTemporary
      cases drafting with
      | create =>
          obtain ⟨dir, change, -⟩ := settled.of_create planned (outcome_eq_ok done)
          exact settled.preserves planned change
      | write =>
          obtain ⟨dir, content, change, -⟩ := settled.of_write planned (outcome_eq_ok done)
          exact settled.preserves planned change
      | sync =>
          cases done
          exact .refl settled
      | replace => exact absurd rfl (notLast _ _)

/-- A step that stops leaves a settled tree settled. -/
theorem preserves_of_stops {step : Step} (settled : t.Settled cwd path) (stepOf : StepOf path step)
    (stops : step.Stops cwd t t') : Preserves t t' cwd path := by
  cases stops with
  | before => exact .refl settled
  | parents missing above =>
      cases stepOf with
      | makeParent parent => exact settled.preserves_of_makeUpward parent missing above
      | draft _ drafting => cases drafting
  | piece count done =>
      cases stepOf with
      | draft isTemporary drafting =>
          cases drafting
          obtain ⟨dirPath, name, planned⟩ := exists_planned isTemporary
          obtain ⟨dir, content, change, -⟩ := settled.of_write planned done
          exact settled.preserves planned change

/-- Where a step fails, nothing is removed but the temporary file. -/
theorem Drafting.cleanUp_cases {step : Step} (drafting : Drafting path temporary step)
    (cwd : Location) (t : Tree) :
    step.cleanUp cwd t = t ∨ t.remove cwd temporary = .ok (step.cleanUp cwd t) := by
  have removal : (Step.sync temporary).cleanUp cwd t = t ∨
      t.remove cwd temporary = .ok ((Step.sync temporary).cleanUp cwd t) := by
    dsimp only [Step.cleanUp]
    cases t.remove cwd temporary with
    | error => exact .inl rfl
    | ok => exact .inr rfl
  cases drafting with
  | create => exact .inl rfl
  | write => exact removal
  | sync => exact removal
  | replace => exact removal

/-- Its removal leaves a settled tree settled. -/
theorem preserves_of_cleanUp {step : Step} (settled : t.Settled cwd path)
    (stepOf : StepOf path step) : Preserves t (step.cleanUp cwd t) cwd path := by
  cases stepOf with
  | makeParent | refuse => exact .refl settled
  | draft isTemporary drafting =>
      rcases drafting.cleanUp_cases cwd t with same | removed
      · rw [same]
        exact .refl settled
      · obtain ⟨dirPath, name, planned⟩ := exists_planned isTemporary
        obtain ⟨dir, change, -⟩ := settled.of_remove planned removed
        exact settled.preserves planned change

/-- **The target of a plan that ends early reads as before.** -/
theorem preserves_of_interrupted (settled : t.Settled cwd path)
    (interrupted : Interrupted cwd t (steps path pieces) t') : Preserves t t' cwd path := by
  refine interrupted.preserves (Preserves t · cwd path)
    (fun step mem middle t' preserves done => ?_)
    (fun step mem middle t' preserves stops => ?_) (.refl settled)
  · refine preserves.trans
      (preserves_of_run preserves.settled
      (stepOf_of_mem ((List.dropLast_sublist _).subset mem)) ?_ done)
    rintro temporary target rfl
    exact replace_notMem_dropLast temporary target mem
  · have stepOf := stepOf_of_mem mem
    have stopped := preserves.trans (preserves_of_stops preserves.settled stepOf stops)
    exact ⟨stopped, stopped.trans (preserves_of_cleanUp stopped.settled stepOf)⟩

/-! ### Plans that come to their end -/

theorem runAll_cons_of_ok {step : Step} {rest : List Step}
    (done : step.run cwd t = (.ok (), t')) :
    runAll cwd t (step :: rest) = runAll cwd t' rest := by
  rw [runAll, done]

/-- Steps come to their end exactly if the first does, and the others behind it. -/
theorem runAll_cons_eq_ok {step : Step} {rest : List Step} :
    runAll cwd t (step :: rest) = (.ok (), t') ↔
      ∃ middle, step.run cwd t = (.ok (), middle) ∧ runAll cwd middle rest = (.ok (), t') := by
  rw [runAll]
  split
  · rename_i middle ran
    constructor
    · exact fun done => ⟨middle, ran, done⟩
    · rintro ⟨_, done, onward⟩
      rw [ran] at done
      cases done
      exact onward
  · rename_i fault middle failed
    constructor
    · intro done
      cases done
    · rintro ⟨_, done, -⟩
      rw [failed] at done
      cases done

theorem runAll_append_eq_ok {front rest : List Step} :
    runAll cwd t (front ++ rest) = (.ok (), t') ↔
      ∃ middle, runAll cwd t front = (.ok (), middle) ∧ runAll cwd middle rest = (.ok (), t') := by
  induction front generalizing t with
  | nil => exact ⟨fun done => ⟨t, rfl, done⟩, fun ⟨_, same, done⟩ => by cases same; exact done⟩
  | cons step front ih =>
      rw [List.cons_append, runAll_cons_eq_ok]
      constructor
      · rintro ⟨first, ran, done⟩
        obtain ⟨middle, inFront, onward⟩ := ih.mp done
        exact ⟨middle, runAll_cons_eq_ok.mpr ⟨first, ran, inFront⟩, onward⟩
      · rintro ⟨middle, inFront, onward⟩
        obtain ⟨first, ran, inFront⟩ := runAll_cons_eq_ok.mp inFront
        exact ⟨first, ran, ih.mpr ⟨middle, inFront, onward⟩⟩

/-- The temporary file has this content, in a settled tree. -/
structure Holds (t : Tree) (cwd : Location) (path dirPath name : String) (content : Octets) :
    Prop where
  settled : t.Settled cwd path
  entry : ∃ dir, t.Arrives cwd dirPath dir ∧
    t.entry? (dir ++ [Path.temporaryName name]) = some (.file content)

variable {dirPath name temporary : String} {content : Octets}

/-- **Pieces are written one behind the other.** -/
theorem Holds.writes (holds : Holds t cwd path dirPath name content)
    (planned : Planned path temporary dirPath name)
    (done : runAll cwd t (writes temporary content.length pieces) = (.ok (), t')) :
    Holds t' cwd path dirPath name (content ++ pieces.flatten) := by
  induction pieces generalizing t content with
  | nil =>
      cases done
      simpa using holds
  | cons piece pieces ih =>
      obtain ⟨middle, written, onward⟩ := runAll_cons_eq_ok.mp done
      obtain ⟨dir, found, change, before, after⟩ :=
        holds.settled.of_write planned (outcome_eq_ok written)
      obtain ⟨dir', arrives', entry⟩ := holds.entry
      obtain rfl := change.arrives.unique arrives'
      rw [entry] at before
      cases before
      rw [overwrite_length] at after
      have holds' : Holds middle cwd path dirPath name (content ++ piece) :=
        ⟨holds.settled.temporaryChange planned change, _,
          change.arrives.mono change.change.passages, after⟩
      rw [List.flatten_cons, ← List.append_assoc]
      exact ih holds' (by rw [List.length_append]; exact onward)

/-- **The target has the content of the temporary file** that is moved over it. -/
theorem Holds.replace (holds : Holds t cwd path dirPath name content)
    (planned : Planned path temporary dirPath name) (moved : t.move cwd temporary path = .ok t') :
    t'.Settled cwd path ∧ t'.read cwd path = .ok content := by
  obtain ⟨settled, dir, arrives, entry⟩ := holds
  obtain ⟨place, source, moved⟩ := bind_eq_ok.mp moved
  obtain ⟨dir', arrives', fitsTemporary, ⟨there, rfl⟩ | ⟨there, rfl⟩ | ⟨_, there, -, rfl⟩⟩ :=
    settled.of_temporary planned source
  · cases moved
  · cases moved
  obtain rfl := arrives.unique arrives'
  rw [entry] at there
  cases there
  obtain ⟨place, target, moved⟩ := bind_eq_ok.mp moved
  -- A path that ends in dots is that of a directory, over which no file is moved.
  by_cases ends : Path.EndsInDots (Path.names path)
  · obtain ⟨_, rfl⟩ := placeOf_of_endsInDots ends target
    cases moved
  have spotOf : ∀ {t : Tree}, t.Arrives cwd dirPath dir' → t.Spot cwd path dir' name := fun arrives =>
    (arrives.spot_of_within planned.within).resolve_left ends
  have spot := spotOf arrives
  have fits := spot.fits_of_placeOf target
  rcases spot.of_resolveKept target with ⟨_, rfl⟩ | ⟨_, rfl⟩ | ⟨noSlash, notDir, there⟩
  · cases moved
  · cases moved
  · refine settled.moved planned arrives spotOf fits noSlash ?_
    rcases there with rfl | ⟨other, noDir, rfl⟩
    · cases moved
      exact moved_set entry notDir
    · cases other with
      | dir => exact absurd rfl noDir
      | file =>
          cases moved
          exact moved_set entry notDir
      | link =>
          cases moved
          exact moved_set entry notDir

/-- Making the directory changes nothing at a settled path. -/
theorem preserves_of_opening (settled : t.Settled cwd path)
    (done : runAll cwd t (opening path) = (.ok (), t')) : Preserves t t' cwd path := by
  cases parent : Path.parent? path.toList with
  | none =>
      rw [opening, parent] at done
      cases done
      exact .refl settled
  | some dirPath =>
      rw [opening, parent] at done
      obtain ⟨_, made, rest⟩ := runAll_cons_eq_ok.mp done
      cases rest
      exact preserves_of_run settled (.makeParent parent) (fun _ _ => nofun) made

/-- **The target of a plan that comes to its end has the new content.** -/
theorem read_of_runAll (settled : t.Settled cwd path)
    (done : runAll cwd t (steps path pieces) = (.ok (), t')) :
    t'.Settled cwd path ∧ t'.read cwd path = .ok pieces.flatten := by
  cases isTemporary : temporary? path.toList with
  | none =>
      rw [steps_eq_refuse isTemporary] at done
      obtain ⟨_, _, refused⟩ := runAll_append_eq_ok.mp done
      cases refused
  | some temporary =>
      rw [steps_eq_draft isTemporary] at done
      obtain ⟨t₁, parents, done⟩ := runAll_append_eq_ok.mp done
      have settled₁ := (preserves_of_opening settled parents).settled
      obtain ⟨dirPath, name, planned⟩ := exists_planned isTemporary
      obtain ⟨t₂, created, done⟩ := runAll_cons_eq_ok.mp done
      obtain ⟨dir, change, empty⟩ := settled₁.of_create planned (outcome_eq_ok created)
      have holds₂ : Holds t₂ cwd path dirPath name [] :=
        ⟨settled₁.temporaryChange planned change, dir,
          change.arrives.mono change.change.passages, empty⟩
      obtain ⟨t₃, written, done⟩ := runAll_append_eq_ok.mp done
      have holds₃ := holds₂.writes planned written
      obtain ⟨t₄, synced, done⟩ := runAll_cons_eq_ok.mp done
      cases synced
      obtain ⟨t₅, moved, done⟩ := runAll_cons_eq_ok.mp done
      cases done
      exact holds₃.replace planned (outcome_eq_ok moved)

/-! The temporary path may be a link to the path: the content is written to the target, and the
link that is moved over it leads to itself. -/

def linkedTo (content : Octets) : Tree :=
  ⟨[([".c.json.tmp"], .link "c.json"), (["c.json"], .file content)]⟩

def looped : Tree := ⟨[(["c.json"], .link "c.json")]⟩

theorem runAll_linkedTo (create : t.create [] ".c.json.tmp" = .ok (linkedTo []))
    (content : Octets) : runAll [] t (steps "c.json" [content]) = (.ok (), looped) := by
  have spells : Spells "c.json" ["c.json"] := by decide +kernel
  have tmp : Spells ".c.json.tmp" [".c.json.tmp"] := by decide +kernel
  have found : (linkedTo []).resolve [] ".c.json.tmp" = .ok (.taken ["c.json"] (.file [])) :=
    tmp.resolve (.link (by decide) (by decide) rfl (.inr (.inl rfl))
      (.file (by decide) (by decide) rfl))
  have move : (linkedTo content).move [] ".c.json.tmp" "c.json" = .ok looped := by
    rw [Tree.move, tmp.resolveKept (.kept rfl (by decide) (by decide) rfl)]
    dsimp only [bind, Except.bind]
    rw [spells.resolveKept (.file (by decide) (by decide) rfl)]
    rfl
  exact runAll_steps "" ".c.json.tmp" (by decide +kernel) (by decide +kernel) rfl create
    (write_whole found) move

/-- A link that leads to itself cannot be read. -/
theorem read_looped : (looped.read [] "c.json").toOption = none := by
  refine read_of_noFile fun loc content found => ?_
  have spells : Spells "c.json" ["c.json"] := by decide +kernel
  rw [spells.resolve_eq, startOf_root, walk_self_link (by decide) (by decide) rfl
    (by decide +kernel) (by decide +kernel) (by decide +kernel)] at found
  cases found

end PatchLint.Files.AtomicWrite
