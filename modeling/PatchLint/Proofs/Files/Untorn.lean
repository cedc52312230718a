import PatchLint.Proofs.Files.Plain
import PatchLint.Proofs.Files.Replaced

/-!
What a plan leaves of a tree without links, whenever it ends.

* `untorn_of_interrupted`: however a plan ends early, its target is as before or has the whole
  new content, and nothing else changes but the temporary file and the directories that are
  made for the target.
* `replaced_of_runAll`: when a plan comes to its end, the target has the new content and the
  temporary file is gone.

The exception is a path that goes through a missing directory and up again (`Detour`). When the
directory is made, the path leads to what was there before, or to the directory itself.
-/

namespace PatchLint.Files.AtomicWrite

open PatchLint.Files.Tree
open PatchLint.Files.Location (ofPath)

variable {t middle s : Tree} {cwd : Location} {path temporary : String}
  {dirPath : List Char} {content : Octets} {pieces : List Octets}

/-! ### What may be left -/

/-- A directory was made at the place, for the path to lie in. -/
def Made (t s : Tree) (cwd : Location) (path : String) (loc : Location) : Prop :=
  t.entry? loc = none ∧ s.entry? loc = some .dir ∧ ∃ parent ∈ Path.parent? path.toList,
    ∃ above ∈ Path.ancestors parent, loc = ofPath cwd (String.ofList above)

/-- The directory of the path is missing. -/
def Missing (t : Tree) (cwd : Location) (path : String) : Prop :=
  ∃ parent ∈ Path.parent? path.toList, parent ≠ [] ∧ t.isThere cwd (String.ofList parent) = false

/-- The path goes up, and its directory is missing. -/
def Detour (t : Tree) (cwd : Location) (path : String) : Prop :=
  ".." ∈ Path.names path ∧ Missing t cwd path

/-- The target is as before or has the whole content, and nothing changes beside it. -/
structure Untorn (t s : Tree) (cwd : Location) (path : String) (content : Octets) : Prop where
  /-- What the path finds. -/
  found : ¬ Detour t cwd path → (s.find cwd path).toOption = (t.find cwd path).toOption ∨
    s.find cwd path = .ok (ofPath cwd path, .file content)
  /-- What is at the place of the path. -/
  target : s.entry? (ofPath cwd path) = t.entry? (ofPath cwd path) ∨
    s.entry? (ofPath cwd path) = some (.file content) ∨
    Detour t cwd path ∧ Made t s cwd path (ofPath cwd path)
  others : ∀ loc, loc ≠ ofPath cwd path →
    (∀ temporary ∈ temporary? path.toList, loc ≠ ofPath cwd temporary) →
    s.entry? loc = t.entry? loc ∨ Made t s cwd path loc

/-! ### Directories that are made for a path -/

/-- Some of the missing directories of a path are made. -/
structure Opened (t s : Tree) (cwd : Location) (path : String) : Prop where
  plain : s.Plain cwd
  each : ∀ loc, s.entry? loc = t.entry? loc ∨ Made t s cwd path loc
  missing : s = t ∨ Missing t cwd path
  grown : ∀ parent ∈ Path.parent? path.toList, ".." ∉ Path.names path →
    Grown t s cwd (String.ofList parent)

/-- Nothing is made where nothing is missing. -/
theorem Opened.refl (plain : t.Plain cwd) : Opened t t cwd path :=
  ⟨plain, fun _ => .inl rfl, .inl rfl, fun _ _ _ => .refl plain.rooted⟩

theorem opened_of_makeUpward (plain : t.Plain cwd) (parent : Path.parent? path.toList = some dirPath)
    (missing : (String.ofList dirPath = "" || t.isThere cwd (String.ofList dirPath)) = false)
    {above : List (List Char)} (some_above : above <:+ Path.ancestors (String.ofList dirPath).toList) :
    Opened t (t.makeUpward cwd above).2 cwd path := by
  rw [String.toList_ofList] at some_above
  rw [Bool.or_eq_false_iff, decide_eq_false_iff_not] at missing
  have built := (Built.refl plain).makeUpward fun path mem => some_above.subset mem
  refine ⟨built.plain, fun loc => (built.each loc).imp_right ?_, .inr ⟨dirPath, parent, ?_, missing.2⟩,
    fun other isParent notUp => ?_⟩
  · rintro ⟨nothing, isDir, made⟩
    exact ⟨nothing, isDir, dirPath, parent, made⟩
  · rintro rfl
    exact missing.1 rfl
  · obtain rfl := Option.some.inj (parent.symm.trans isParent)
    obtain ⟨rest, names, -⟩ := Path.exists_names_of_parent? parent
    refine (Grown.refl plain.rooted).makeUpward plain.inside (fun up => notUp ?_)
      fun path mem => isAbove_of_mem_ancestors ?_
    · rw [Path.names_eq, names, ← @String.toList_ofList dirPath]
      exact List.mem_append_left _ up
    · rw [String.toList_ofList]
      exact some_above.subset mem

theorem opened_of_stops {step : Step} (plain : t.Plain cwd) (mem : step ∈ opening path)
    (stops : step.Stops cwd t s) : Opened t s cwd path := by
  obtain ⟨dirPath, parent, rfl⟩ := mem_opening mem
  cases stops with
  | before => exact .refl plain
  | parents missing above => exact opened_of_makeUpward plain parent missing above

/-- A plan that stops before its temporary file has made directories at most. -/
theorem opened_of_interrupted (plain : t.Plain cwd) (early : Interrupted cwd t (opening path) s) :
    Opened t s cwd path := by
  cases parent : Path.parent? path.toList with
  | none =>
      rw [opening, parent] at early
      cases early
  | some dirPath =>
      have mem : Step.makeParent (String.ofList dirPath) ∈ opening path := by simp [opening, parent]
      rw [opening, parent] at early
      cases early with
      | stopped stops => exact opened_of_stops plain mem stops
      | cleaned stops => exact opened_of_stops plain mem stops
      | later _ early => cases early

theorem opened_of_runAll (plain : t.Plain cwd) (done : runAll cwd t (opening path) = (.ok (), s)) :
    Opened t s cwd path := by
  cases parent : Path.parent? path.toList with
  | none =>
      rw [opening, parent] at done
      cases done
      exact .refl plain
  | some dirPath =>
      rw [opening, parent] at done
      obtain ⟨_, made, rest⟩ := runAll_cons_eq_ok.mp done
      cases rest
      rcases Step.makeParent_cases made with ⟨-, rfl⟩ | ⟨missing, rfl⟩
      · exact .refl plain
      · exact opened_of_makeUpward plain parent missing List.suffix_rfl

/-- Without going up, no directory above the path is at its place. -/
theorem not_made_of_notUp (missing : Missing t cwd path) (notUp : ".." ∉ Path.names path) :
    ¬ Made t s cwd path (ofPath cwd path) := by
  rintro ⟨-, -, parent, isParent, above, mem, same⟩
  obtain ⟨dirPath, isParent', named, -⟩ := missing
  obtain rfl := Option.some.inj (isParent.symm.trans isParent')
  obtain ⟨name, hasName⟩ := Path.exists_fileName_of_parent? isParent named notUp
  have within := Path.within_of_text isParent hasName
  have aboves : above ∈ Path.ancestors (String.ofList parent).toList := by
    rwa [String.toList_ofList]
  obtain ⟨absolute, rest, names⟩ := isAbove_of_mem_ancestors aboves
  obtain ⟨before, after, -, -, names'⟩ := within.names
  have notUp' : ".." ∉ rest := fun up => notUp (by
    rw [names', names]
    exact List.mem_append_left _ (List.mem_append_left _ (List.mem_append_right _ up)))
  rw [Location.ofPath_within within, ofPath, ofPath, names, List.foldl_append,
    Location.foldl_enter_of_notUp notUp', startOf_congr absolute, List.append_assoc] at same
  exact List.append_ne_nil_of_right_ne_nil _ (List.cons_ne_nil _ _)
    (List.append_right_eq_self.mp same)

/-- Without going up, nothing is found where the directory of a path is missing, also when
directories are made. -/
theorem Opened.find_eq_none (opened : Opened t s cwd path) (missing : Missing t cwd path)
    (notUp : ".." ∉ Path.names path) :
    (t.find cwd path).toOption = none ∧ (s.find cwd path).toOption = none := by
  obtain ⟨dirPath, parent, named, missing⟩ := missing
  obtain ⟨name, hasName⟩ := Path.exists_fileName_of_parent? parent named notUp
  have within := Path.within_of_text parent hasName
  have named' : String.ofList dirPath ≠ "" := fun empty =>
    named (String.ofList_injective empty)
  have before : (t.find cwd path).toOption = none := by
    refine Option.eq_none_iff_forall_ne_some.mpr fun found isFound => ?_
    obtain ⟨place, resolved, -⟩ := bind_eq_ok.mp (toOption_eq_some.mp isFound)
    exact placeOf_of_missing within named' missing place resolved
  refine ⟨before, ?_⟩
  rcases (opened.grown dirPath parent notUp).barren with rfl | barren
  · exact before
  refine Option.eq_none_iff_forall_ne_some.mpr fun found isFound => ?_
  obtain ⟨place, resolved, isFound⟩ := bind_eq_ok.mp (toOption_eq_some.mp isFound)
  cases place with
  | free => cases isFound
  | taken loc entry => exact barren.not_taken_within within notUp loc entry resolved

/-- **What is left after the directories are made** and only files change. -/
theorem Opened.untorn (opened : Opened t middle cwd path) (plain : s.Plain cwd)
    (dirs : ∀ loc, s.entry? loc = some .dir ↔ middle.entry? loc = some .dir)
    (target : s.entry? (ofPath cwd path) = middle.entry? (ofPath cwd path) ∨
      s.find cwd path = .ok (ofPath cwd path, .file content))
    (others : ∀ loc, loc ≠ ofPath cwd path →
      (∀ temporary ∈ temporary? path.toList, loc ≠ ofPath cwd temporary) →
      s.entry? loc = middle.entry? loc) : Untorn t s cwd path content where
  found noDetour := by
    refine target.imp_left fun same => ?_
    have congr := opened.plain.find_congr plain dirs same
    rcases opened.missing with rfl | missing
    · exact congr
    · have notUp : ".." ∉ Path.names path := fun up => noDetour ⟨up, missing⟩
      obtain ⟨before, after⟩ := opened.find_eq_none missing notUp
      rw [congr, before, after]
  target := by
    rcases target with same | found
    · rw [same]
      refine (opened.each _).imp_right fun made => .inr ⟨?_, made.1, same.trans made.2.1, made.2.2⟩
      rcases opened.missing with rfl | missing
      · cases made.1.symm.trans made.2.1
      · exact ⟨Decidable.byContradiction fun notUp => not_made_of_notUp missing notUp made, missing⟩
    · exact .inr (.inl (plain.entry?_of_find found).2)
  others loc notTarget notTemporary := by
    have same := others loc notTarget notTemporary
    rw [same]
    exact (opened.each loc).imp_right fun made => ⟨made.1, same.trans made.2.1, made.2.2⟩

/-! ### The temporary file -/

/-- Nothing but the temporary file sets the trees apart. -/
structure Drafted (t s : Tree) (cwd : Location) (temporary : String) : Prop where
  plain : s.Plain cwd
  isDirectory_iff : ∀ loc, s.entry? loc = some .dir ↔ t.entry? loc = some .dir
  others : ∀ loc, loc ≠ ofPath cwd temporary → s.entry? loc = t.entry? loc

theorem Drafted.refl (plain : t.Plain cwd) : Drafted t t cwd temporary :=
  ⟨plain, fun _ => Iff.rfl, fun _ _ => rfl⟩

theorem Drafted.next {s' : Tree} (drafted : Drafted t s cwd temporary) (plain : s'.Plain cwd)
    (change : FileChange s s' (ofPath cwd temporary)) : Drafted t s' cwd temporary :=
  ⟨plain, fun loc => (change.isDirectory_iff loc).trans (drafted.isDirectory_iff loc),
    fun loc ne => (change.others loc ne).trans (drafted.others loc ne)⟩

/-- Cleaning up behind a step changes the temporary file alone. -/
theorem Drafted.cleanUp {step : Step} (drafted : Drafted t s cwd temporary)
    (drafting : Drafting path temporary step) :
    Drafted t (step.cleanUp cwd s) cwd temporary := by
  rcases drafting.cleanUp_cases cwd s with same | removed
  · rw [same]
    exact drafted
  · obtain ⟨plain, change⟩ := drafted.plain.of_remove removed
    exact drafted.next plain change

/-- A step before the last changes the temporary file only. -/
theorem Drafted.run {step : Step} {s' : Tree} (drafted : Drafted t s cwd temporary)
    (drafting : Drafting path temporary step) (notLast : step ≠ .replace temporary path)
    (done : step.run cwd s = (.ok (), s')) : Drafted t s' cwd temporary := by
  cases drafting with
  | create =>
      obtain ⟨plain, change, -⟩ := drafted.plain.of_create (outcome_eq_ok done)
      exact drafted.next plain change
  | write =>
      obtain ⟨plain, change, -⟩ := drafted.plain.of_write (outcome_eq_ok done)
      exact drafted.next plain change
  | sync =>
      cases done
      exact drafted
  | replace => exact absurd rfl notLast

/-- So does one that stops. -/
theorem Drafted.stops {step : Step} {s' : Tree} (drafted : Drafted t s cwd temporary)
    (drafting : Drafting path temporary step) (stops : step.Stops cwd s s') :
    Drafted t s' cwd temporary := by
  cases stops with
  | before => exact drafted
  | parents => cases drafting
  | piece count done =>
      cases drafting
      obtain ⟨plain, change, -⟩ := drafted.plain.of_write done
      exact drafted.next plain change

/-- **A draft that ends early** changes the temporary file only. -/
theorem drafted_of_interrupted (isTemporary : temporary? path.toList = some temporary)
    (plain : t.Plain cwd) (early : Interrupted cwd t (draft path temporary pieces) s) :
    Drafted t s cwd temporary := by
  refine early.preserves (Drafted t · cwd temporary) (fun step mem _ _ drafted done => ?_)
    (fun step mem _ _ drafted stops => ?_) (.refl plain)
  · refine drafted.run (drafting_of_mem ((List.dropLast_sublist _).subset mem)) ?_ done
    rintro rfl
    refine absurd ?_ (@replace_notMem_dropLast path pieces temporary path)
    rw [steps_eq_draft isTemporary, List.dropLast_append_of_ne_nil (by simp [draft])]
    exact List.mem_append_right _ mem
  · have drafting := drafting_of_mem mem
    have stopped := drafted.stops drafting stops
    exact ⟨stopped, stopped.cleanUp drafting⟩

/-- The temporary file has this content, and nothing else sets the trees apart. -/
structure Written (t s : Tree) (cwd : Location) (temporary : String) (content : Octets) : Prop
    extends Drafted t s cwd temporary where
  entry : s.entry? (ofPath cwd temporary) = some (.file content)

/-- Pieces are written one behind the other. -/
theorem Written.writes {s' : Tree} (written : Written t s cwd temporary content)
    (done : runAll cwd s (AtomicWrite.writes temporary content.length pieces) = (.ok (), s')) :
    Written t s' cwd temporary (content ++ pieces.flatten) := by
  induction pieces generalizing s content with
  | nil =>
      cases done
      simpa using written
  | cons piece pieces ih =>
      obtain ⟨middle, isWritten, onward⟩ := runAll_cons_eq_ok.mp done
      obtain ⟨plain, change, before, there, after⟩ := written.plain.of_write (outcome_eq_ok isWritten)
      rw [written.entry] at there
      cases there
      rw [overwrite_length] at after
      rw [List.flatten_cons, ← List.append_assoc]
      exact ih ⟨written.next plain change, after⟩ (by rw [List.length_append]; exact onward)

/-! ### Whole plans -/

/-- While the temporary file is written, the target is as before. -/
theorem Opened.untorn_of_drafted (opened : Opened t middle cwd path)
    (isTemporary : temporary? path.toList = some temporary)
    (drafted : Drafted middle s cwd temporary) : Untorn t s cwd path content :=
  opened.untorn drafted.plain drafted.isDirectory_iff
    (.inl (drafted.others _ (Location.ofPath_temporary_ne isTemporary).symm))
    fun loc _ notTemporary => drafted.others loc (notTemporary temporary isTemporary)

/-- However early the plan ends, the target is as before or whole. -/
theorem untorn_of_interrupted (plain : t.Plain cwd)
    (early : Interrupted cwd t (steps path pieces) s) : Untorn t s cwd path content := by
  have opened_untorn : ∀ {s}, Opened t s cwd path → Untorn t s cwd path content := fun opened =>
    opened.untorn opened.plain (fun _ => Iff.rfl) (.inl rfl) fun _ _ _ => rfl
  cases isTemporary : temporary? path.toList with
  | none =>
      rw [steps_eq_refuse isTemporary] at early
      rcases early.of_append with early | ⟨middle, opening, refused⟩
      · exact opened_untorn (opened_of_interrupted plain early)
      · have opened := opened_of_runAll plain opening
        cases refused with
        | stopped stops =>
            cases stops
            exact opened_untorn opened
        | cleaned stops =>
            cases stops
            exact opened_untorn opened
        | later done => cases done
  | some temporary =>
      rw [steps_eq_draft isTemporary] at early
      rcases early.of_append with early | ⟨middle, opening, early⟩
      · exact opened_untorn (opened_of_interrupted plain early)
      · have opened := opened_of_runAll plain opening
        exact opened.untorn_of_drafted isTemporary
          (drafted_of_interrupted isTemporary opened.plain early)

/-- What a plan has done that comes to its end. -/
theorem exists_moved_of_runAll (plain : t.Plain cwd)
    (done : runAll cwd t (steps path pieces) = (.ok (), s)) :
    ∃ temporary middle written, temporary? path.toList = some temporary ∧
      Opened t middle cwd path ∧ Written middle written cwd temporary pieces.flatten ∧
      s.Plain cwd ∧
      MovedFile written s (ofPath cwd temporary) (ofPath cwd path) pieces.flatten ∧
      s.find cwd path = .ok (ofPath cwd path, .file pieces.flatten) := by
  cases isTemporary : temporary? path.toList with
  | none =>
      rw [steps_eq_refuse isTemporary] at done
      obtain ⟨_, _, refused⟩ := runAll_append_eq_ok.mp done
      cases refused
  | some temporary =>
      rw [steps_eq_draft isTemporary] at done
      obtain ⟨middle, opening, done⟩ := runAll_append_eq_ok.mp done
      have opened := opened_of_runAll plain opening
      obtain ⟨emptied, created, done⟩ := runAll_cons_eq_ok.mp done
      obtain ⟨plain₁, change, empty⟩ := opened.plain.of_create (outcome_eq_ok created)
      have written : Written middle emptied cwd temporary [] :=
        ⟨(Drafted.refl opened.plain).next plain₁ change, empty⟩
      obtain ⟨filled, isWritten, done⟩ := runAll_append_eq_ok.mp done
      have written := written.writes isWritten
      obtain ⟨_, synced, done⟩ := runAll_cons_eq_ok.mp done
      cases synced
      obtain ⟨_, moved, done⟩ := runAll_cons_eq_ok.mp done
      cases done
      obtain ⟨plain₂, content, moved, found⟩ := written.plain.of_move
        (Location.ofPath_temporary_ne isTemporary) (outcome_eq_ok moved)
      cases written.entry.symm.trans moved.before
      exact ⟨temporary, middle, filled, rfl, opened, written, plain₂, moved, found⟩

/-- What a plan leaves of a tree without links that comes to its end. -/
structure Replaced (s : Tree) (cwd : Location) (path : String) (content : Octets) : Prop where
  target : s.find cwd path = .ok (ofPath cwd path, .file content)
  temporary : ∃ temporary, temporary? path.toList = some temporary ∧
    s.entry? (ofPath cwd temporary) = none ∧ s.isThere cwd temporary = false

/-- A plan that comes to its end has replaced the target, and leaves no temporary file. -/
theorem replaced_of_runAll (plain : t.Plain cwd)
    (done : runAll cwd t (steps path pieces) = (.ok (), s)) :
    Untorn t s cwd path pieces.flatten ∧ Replaced s cwd path pieces.flatten := by
  obtain ⟨temporary, middle, written, isTemporary, opened, isWritten, plain', moved, found⟩ :=
    exists_moved_of_runAll plain done
  refine ⟨opened.untorn plain'
    (fun loc => (moved.isDirectory_iff loc).trans (isWritten.isDirectory_iff loc)) (.inr found)
    fun loc notTarget notTemporary => ?_, found, temporary, isTemporary, moved.gone, ?_⟩
  · have atTemporary := notTemporary temporary isTemporary
    rw [moved.others loc notTarget atTemporary, isWritten.others loc atTemporary]
  · rw [isThere]
    cases isFound : s.find cwd temporary with
    | error => rfl
    | ok found =>
        cases moved.gone.symm.trans (plain'.entry?_of_find isFound).2

/-- **A plan never tears its target**, wherever it ends, and at its end the target has the
content. -/
theorem untorn_wherever_it_ends (plain : t.Plain cwd) (path : String) (pieces : List Octets) :
    (∀ s, Interrupted cwd t (steps path pieces) s → Untorn t s cwd path pieces.flatten) ∧
    ∀ r s, runAll cwd t (steps path pieces) = (r, s) → Untorn t s cwd path pieces.flatten ∧
      (r = .ok () → Replaced s cwd path pieces.flatten) := by
  refine ⟨fun s early => untorn_of_interrupted plain early, fun r s ran => ?_⟩
  cases r with
  | error fault => exact ⟨untorn_of_interrupted plain (interrupted_of_runAll ran), nofun⟩
  | ok _ => exact (replaced_of_runAll plain ran).imp_right fun replaced _ => replaced

/-! A file that is there is saved again. -/

def saved : Tree := ⟨[(["c.json"], .file [1])]⟩

def savedWith (piece : Octets) : Tree :=
  ⟨[(["c.json"], .file [1]), ([".c.json.tmp"], .file piece)]⟩

theorem plain_saved : saved.Plain [] :=
  plain_of_entries (by simp [saved, entry?_root]) (by simp [saved])

theorem spells_saved : Spells "c.json" ["c.json"] := by decide +kernel

theorem spells_savedWith : Spells ".c.json.tmp" [".c.json.tmp"] := by decide +kernel

theorem resolve_savedWith (piece : Octets) : (savedWith piece).resolve [] ".c.json.tmp" =
    .ok (.taken [".c.json.tmp"] (.file piece)) :=
  spells_savedWith.resolve (.file (by decide) (by decide) rfl)

theorem create_saved : saved.create [] ".c.json.tmp" = .ok (savedWith []) := by
  rw [Tree.create, spells_savedWith.resolve (.free (by decide) (by decide) rfl)]
  rfl

theorem move_savedWith (piece : Octets) : (savedWith piece).move [] ".c.json.tmp" "c.json" =
    .ok ⟨[(["c.json"], .file piece)]⟩ := by
  rw [Tree.move, spells_savedWith.resolveKept (.file (by decide) (by decide) rfl)]
  dsimp only [bind, Except.bind]
  rw [spells_saved.resolveKept (.file (by decide) (by decide) rfl)]
  rfl

theorem steps_saved (content : Octets) : steps "c.json" [content] =
    [.makeParent "", .create ".c.json.tmp", .write ".c.json.tmp" 0 content, .sync ".c.json.tmp",
      .replace ".c.json.tmp" "c.json"] :=
  steps_eq "" ".c.json.tmp" (by decide +kernel) (by decide +kernel) content

/-- A plan that is stopped when half of the content is written, and one that comes to its end. -/
theorem untorn_wherever_it_ends_saved : saved.Plain [] ∧
    (∃ s, s.entry? [".c.json.tmp"] = some (.file [2]) ∧ Untorn saved s [] "c.json" [2, 3]) ∧
    ∃ s, runAll [] saved (steps "c.json" [[2, 3]]) = (.ok (), s) ∧
      Replaced s [] "c.json" [2, 3] := by
  have write (piece : Octets) :
      (savedWith []).write [] ".c.json.tmp" 0 piece = .ok (savedWith piece) :=
    write_whole (resolve_savedWith [])
  have stopped : Interrupted [] saved (steps "c.json" [[2, 3]]) (savedWith [2]) := by
    rw [steps_saved]
    exact .later rfl (.later (by rw [Step.run, create_saved]; rfl)
      (.stopped (.piece 1 (write [2]))))
  have ran := runAll_steps "" ".c.json.tmp" (by decide +kernel) (by decide +kernel) rfl
    create_saved (write [2, 3]) (move_savedWith [2, 3])
  obtain ⟨early, atEnd⟩ := untorn_wherever_it_ends plain_saved "c.json" [[2, 3]]
  exact ⟨plain_saved, ⟨_, rfl, early _ stopped⟩, _, ran, (atEnd _ _ ran).2 rfl⟩

def bare : Tree := {}

/-- **Paths must not go up from a missing directory**: it is made, and is where this path leads. -/
theorem not_untorn_of_detour : bare.Plain [] ∧ (bare.find [] "c/../c").toOption = none ∧
    ∃ s, runAll [] bare (steps "c/../c" [[1]]) =
        (.error (.notReplaced "c/../c" .isDirectory), s) ∧
      s.find [] "c/../c" = .ok (["c"], .dir) := by
  have spells : Spells "c/../c" ["c", "..", "c"] := by decide +kernel
  have tmp : Spells "c/../.c.tmp" ["c", "..", ".c.tmp"] := by decide +kernel
  let made : Tree := ⟨[(["c"], .dir)]⟩
  let withDraft (piece : Octets) : Tree := ⟨[(["c"], .dir), ([".c.tmp"], .file piece)]⟩
  have makeParent : Step.run [] bare (.makeParent "c/..") = (.ok (), made) :=
    run_makeParent_up "c" (by decide +kernel) (by decide +kernel) (by decide +kernel) (by decide)
      (by decide) rfl
  have create : made.create [] "c/../.c.tmp" = .ok (withDraft []) := by
    rw [Tree.create, tmp.resolve
      (.down (by decide) (by decide) rfl (.up (.free (by decide) (by decide) rfl)))]
    rfl
  have write : (withDraft []).write [] "c/../.c.tmp" 0 [1] = .ok (withDraft [1]) :=
    write_whole (tmp.resolve
      (.down (by decide) (by decide) rfl (.up (.file (by decide) (by decide) rfl))))
  -- By now the path stands for the directory that was made on the way.
  have move : (withDraft [1]).move [] "c/../.c.tmp" "c/../c" = .error .isDirectory := by
    rw [Tree.move, tmp.resolveKept
      (.down (by decide) (by decide) rfl (.up (.file (by decide) (by decide) rfl)))]
    dsimp only [bind, Except.bind]
    rw [spells.resolveKept
      (.down (by decide) (by decide) rfl (.up (.down (by decide) (by decide) rfl .stop)))]
    rfl
  have remove : (withDraft [1]).remove [] "c/../.c.tmp" = .ok made := by
    rw [Tree.remove, tmp.placeOf, startOf_root, Walks.walk_eq
      (.down (by decide) (by decide) rfl (.up (.file (by decide) (by decide) rfl)))]
    rfl
  refine ⟨plain_of_entries (List.forall_mem_nil _) (List.forall_mem_nil _), ?_, made, ?_, ?_⟩
  · rw [find, spells.resolve_eq, startOf_root, walk_none (by decide) (by decide) rfl]
    rfl
  · rw [steps_eq "c/.." "c/../.c.tmp" (by decide +kernel) (by decide +kernel), runAll, makeParent]
    dsimp only
    rw [runAll, Step.run, create]
    dsimp only [outcome]
    rw [runAll, Step.run, write]
    dsimp only [outcome]
    rw [runAll, Step.run]
    dsimp only
    rw [runAll, Step.run, move]
    dsimp only [outcome, Step.cleanUp]
    rw [remove]
  · rw [find, spells.resolve
      (.down (by decide) (by decide) rfl (.up (.down (by decide) (by decide) rfl .stop)))]
    rfl

end PatchLint.Files.AtomicWrite
