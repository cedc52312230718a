import PatchLint.Proofs.Cache.Lasting
import PatchLint.Proofs.Files.Replaced
import PatchLint.Text.Octets

/-!
A cache and its file, from the time it is loaded.

`History` is whatever may happen to them: messages are put in, the cache is saved, a save fails
or is stopped on the way, and other files change. The mark of a cache that something is not
saved can be relied on:

* `History.store`: the mark is set if something was put in since the cache was loaded or saved,
  and as long as it is not set, the file holds the same entries.
* `not_store`: this needs settled files. Else a save that fails can make the file visible or
  remove it, and one that succeeds can hide it.
-/

namespace PatchLint.Cache

open PatchLint.Lint (Message Messages)

/-! ### Loading -/

/-- What is loaded rests with the text of the file. -/
theorem load_eq (files : Files.Tree) (cwd : Files.Location) (path : String) :
    load files cwd path =
      ⟨path, ((files.readText cwd path).toOption.bind entriesOfText?).getD [], false⟩ := by
  unfold load
  cases files.readText cwd path with
  | error fault => rfl
  | ok text => rfl

/-- A file that cannot be read is loaded as an empty cache. -/
theorem load_of_readText_error {files : Files.Tree} {cwd : Files.Location} {path : String}
    (unread : (files.readText cwd path).toOption = none) : load files cwd path = { path } := by
  rw [load_eq, unread]
  rfl

/-- **A saved cache is loaded as it is**, if its entries last. -/
theorem entries_load_of_read {c : Cache} (lasts : c.Lasts) {files : Files.Tree}
    {cwd : Files.Location} {path : String} (read : files.read cwd path = .ok (.ofText c.text)) :
    (load files cwd path).entries = c.entries := by
  have text : files.readText cwd path = .ok c.text := by
    simp only [Files.Tree.readText, read, bind, Except.bind, pure, Except.pure,
      Octets.text?_ofText]
  simp only [load_eq, text, Except.toOption, Option.bind_some, entriesOfText?_self lasts,
    Option.getD_some]

/-! ### Saving -/

variable {cwd : Files.Location} {path : String} {files files' : Files.Tree} {c c' : Cache}

def plan (c : Cache) : List Files.AtomicWrite.Step :=
  Files.AtomicWrite.steps c.path [.ofText c.text]

/-- A save succeeds if its steps do, and takes the mark away. -/
theorem save_eq_ok_iff {u : Unit} : c.save files cwd = (.ok u, c', files') ↔
    Files.AtomicWrite.runAll cwd files c.plan = (.ok (), files') ∧
      c' = { c with isDirty := false } := by
  constructor
  · intro done
    unfold save Files.Tree.replaceContent at done
    split at done
    · rename_i ran
      cases done
      exact ⟨ran, rfl⟩
    · cases done
  · rintro ⟨ran, rfl⟩
    have ran' : files.replaceContent cwd c.path (.ofText c.text) = (.ok (), files') := ran
    rw [save, ran']

/-- A save that fails changes the files only, as a plan does that ends early. -/
theorem save_eq_error {e : Error} (failed : c.save files cwd = (.error e, c', files')) :
    Files.AtomicWrite.Interrupted cwd files c.plan files' ∧ c' = c := by
  unfold save Files.Tree.replaceContent at failed
  split at failed
  · cases failed
  · rename_i ran
    cases failed
    exact ⟨Files.AtomicWrite.interrupted_of_runAll ran, rfl⟩

/-! ### Histories -/

/-- What happens to a cache. -/
inductive Event where
  | inserted
  | saved
  /-- A save failed or was stopped. -/
  | notSaved
  deriving DecidableEq, Repr

/-- What may have happened to a cache and to the files, the latest event first. `others` says
how the files may be before, and may be left by anyone else. -/
inductive History (others : Files.Tree → Prop) (cwd : Files.Location) (path : String) :
    List Event → Cache → Files.Tree → Prop
  /-- There may be any text at the path, or none. -/
  | load {files : Files.Tree} : others files →
      (∀ e ∈ (load files cwd path).entries, e.2.Exact) →
      History others cwd path [] (load files cwd path) files
  /-- What a linter says of a file is put in. -/
  | insert {events : List Event} {c : Cache} {files : Files.Tree} {output : String}
      {ms : Messages} (key command file : String) (clock : Time.Instant) :
      History others cwd path events c files → Messages.ofOutput output = .ok ms →
      (∀ m ∈ ms, ∀ p ∈ m.properties, p.2.nesting ≤ valueDepth) →
      Entry.Exact ⟨command, clock, ms.relabel file⟩ →
      History others cwd path (.inserted :: events) (c.insert key command (ms.relabel file) clock)
        files
  | save {events : List Event} {c c' : Cache} {files files' : Files.Tree} :
      History others cwd path events c files → c.save files cwd = (.ok (), c', files') →
      History others cwd path (.saved :: events) c' files'
  | fail {events : List Event} {c c' : Cache} {files files' : Files.Tree} {e : Error} :
      History others cwd path events c files → c.save files cwd = (.error e, c', files') →
      History others cwd path (.notSaved :: events) c' files'
  /-- A save is stopped from outside. -/
  | stop {events : List Event} {c : Cache} {files files' : Files.Tree} :
      History others cwd path events c files →
      Files.AtomicWrite.Interrupted cwd files c.plan files' →
      History others cwd path (.notSaved :: events) c files'
  /-- Something else is done to the files, and the path reads the same. -/
  | elsewhere {events : List Event} {c : Cache} {files files' : Files.Tree} :
      History others cwd path events c files → others files' →
      (files'.readText cwd path).toOption = (files.readText cwd path).toOption →
      History others cwd path events c files'

/-- Something was put in since the cache was loaded or saved. -/
def Unsaved (events : List Event) : Prop := .inserted ∈ events.takeWhile (· ≠ .saved)

instance (events : List Event) : Decidable (Unsaved events) := by
  unfold Unsaved; infer_instance

/-- What is true of a cache and of the files at every point of a history. -/
structure Stored (cwd : Files.Location) (path : String) (events : List Event) (c : Cache)
    (files : Files.Tree) : Prop where
  file : c.path = path
  settled : files.Settled cwd path
  lasts : c.Lasts
  marked : c.isDirty = true ↔ Unsaved events
  same : c.isDirty = false → (Cache.load files cwd path).entries = c.entries

/-- A cache stays stored while the path reads the same. -/
theorem Stored.keeps {events events' : List Event} (stored : Stored cwd path events c files)
    (keeps : files.Keeps files' cwd path) (unsaved : Unsaved events' ↔ Unsaved events) :
    Stored cwd path events' c files' where
  file := stored.file
  settled := keeps.settled
  lasts := stored.lasts
  marked := stored.marked.trans unsaved.symm
  same clean := by
    rw [← stored.same clean, load_eq, load_eq, keeps.same]

/-- The cache that was loaded is the one in the file. -/
theorem stored_load (settled : files.Settled cwd path)
    (exact : ∀ e ∈ (load files cwd path).entries, e.2.Exact) :
    Stored cwd path [] (load files cwd path) files := by
  have clean : (load files cwd path).isDirty = false := by rw [load_eq]
  refine ⟨by rw [load_eq], settled, lasts_load exact, ?_, fun _ => rfl⟩
  rw [clean]
  simp [Unsaved]

/-- An insertion leaves the file alone, and the cache differs from it from then on. -/
theorem Stored.insert {events : List Event} (stored : Stored cwd path events c files)
    {output : String} {ms : Messages} (said : Messages.ofOutput output = .ok ms)
    (nests : ∀ m ∈ ms, ∀ p ∈ m.properties, p.2.nesting ≤ valueDepth)
    {command file : String} {clock : Time.Instant}
    (exact : Entry.Exact ⟨command, clock, ms.relabel file⟩) (key : String) :
    Stored cwd path (.inserted :: events) (c.insert key command (ms.relabel file) clock) files := by
  have isRead := Messages.isRead_relabel (Messages.all_isRead_of_ofOutput said).1 file
  have nests' : ∀ m ∈ ms.relabel file, ∀ p ∈ m.properties, p.2.nesting ≤ valueDepth := by
    intro m mem
    obtain ⟨m, said', rfl⟩ := List.mem_map.mp mem
    exact nests m said'
  refine ⟨stored.file, stored.settled, stored.lasts.insert (Entry.lasts isRead nests' exact), ?_,
    nofun⟩
  simp [Cache.insert, Unsaved]

/-- A save that comes to its end puts the whole cache into the file. -/
theorem Stored.save {events : List Event} (stored : Stored cwd path events c files)
    (done : Files.AtomicWrite.runAll cwd files c.plan = (.ok (), files')) :
    Stored cwd path (.saved :: events) { c with isDirty := false } files' := by
  unfold plan at done
  rw [stored.file] at done
  obtain ⟨settled, read⟩ := Files.AtomicWrite.read_of_runAll stored.settled done
  rw [List.flatten_singleton] at read
  exact ⟨stored.file, settled, ⟨stored.lasts.ordered, stored.lasts.entries⟩, by simp [Unsaved],
    fun _ => entries_load_of_read stored.lasts read⟩

/-- A save that does not leaves the text that was there. -/
theorem Stored.stop {events : List Event} (stored : Stored cwd path events c files)
    (stopped : Files.AtomicWrite.Interrupted cwd files c.plan files') :
    Stored cwd path (.notSaved :: events) c files' := by
  unfold plan at stopped
  rw [stored.file] at stopped
  refine stored.keeps
    (Files.AtomicWrite.preserves_of_interrupted stored.settled stopped).keeps ?_
  simp [Unsaved]

/-- With these, the cache stays in step with its file through every history. -/
theorem History.stored {events : List Event}
    (history : History (·.Settled cwd path) cwd path events c files) :
    Stored cwd path events c files := by
  induction history with
  | load settled exact => exact stored_load settled exact
  | insert key command file clock _ said nests exact ih => exact ih.insert said nests exact key
  | save _ done ih =>
      obtain ⟨ran, rfl⟩ := save_eq_ok_iff.mp done
      exact ih.save ran
  | fail _ failed ih =>
      obtain ⟨stopped, rfl⟩ := save_eq_error failed
      exact ih.stop stopped
  | stop _ stopped ih => exact ih.stop stopped
  | elsewhere _ settled same ih => exact ih.keeps ⟨settled, same⟩ Iff.rfl

/-- **A cache is marked exactly if something was put in since it was loaded or saved, and if it is
not marked, it would be loaded from its file as it is.** -/
theorem History.store {events : List Event}
    (history : History (·.Settled cwd path) cwd path events c files) :
    (c.isDirty = true ↔ Unsaved events) ∧
      (c.isDirty = false → (Cache.load files cwd path).entries = c.entries) :=
  ⟨history.stored.marked, history.stored.same⟩

/-! The path may be a link to another file, which is not the temporary one. -/

section

open Files.Tree Files.AtomicWrite

def linked : Files.Tree :=
  ⟨[(["c.json"], .link "o.json"), (["o.json"], .file (.ofText "other"))]⟩

/-- The link is a settled path: nothing is at its temporary path. -/
theorem settled_linked : linked.Settled [] "c.json" := by
  have spells : Spells "c.json" ["c.json"] := by decide +kernel
  have tmp : Spells ".c.json.tmp" [".c.json.tmp"] := by decide +kernel
  have isTmp : ∀ temporary ∈ temporary? "c.json".toList, temporary = ".c.json.tmp" := by
    intro temporary isTemporary
    rw [show temporary? "c.json".toList = some ".c.json.tmp" by decide +kernel] at isTemporary
    exact (Option.some.inj isTemporary).symm
  refine ⟨rooted_of_entries (by simp [linked, entry?_root]), rfl, fun _ => ⟨?_, ?_⟩, ?_,
    .inr (by decide +kernel)⟩
  · intro dirPath name dir parent _ arrives
    rw [show Files.Path.parent? "c.json".toList = some "".toList by decide +kernel] at parent
    obtain rfl := String.toList_injective (Option.some.inj parent)
    obtain ⟨links, leads⟩ := arrives
    cases leads
    exact ⟨_, .here⟩
  · rintro temporary isTemporary loc ⟨place, resolved, forFile⟩ ⟨place', resolved', forFile'⟩
    rw [isTmp temporary isTemporary, tmp.resolve (.free (by decide) (by decide) rfl)] at resolved
    rw [spells.resolve (.link (by decide) (by decide) rfl (.inr (.inl rfl))
      (.file (by decide) (by decide) rfl))] at resolved'
    cases resolved
    cases resolved'
    have same := (forFile.eq (.inr ⟨_, rfl⟩)).trans (forFile'.eq (.inl ⟨_, rfl⟩)).symm
    exact absurd same (by decide)
  · rintro temporary isTemporary ⟨loc, target, found⟩
    rw [isTmp temporary isTemporary, tmp.placeOf, walk_none (by decide) (by decide) rfl] at found
    cases found

theorem load_linked : load linked [] "c.json" = { path := "c.json" } := by
  have spells : Spells "c.json" ["c.json"] := by decide +kernel
  have text : linked.readText [] "c.json" = .ok "other" := readText_eq_ok_iff.mpr ⟨_, _,
    spells.resolve (.link (by decide) (by decide) rfl (.inr (.inl rfl))
      (.file (by decide) (by decide) rfl)), Octets.text?_ofText _⟩
  rw [load_eq, text]
  rfl

/-- The files with a temporary file beside the link. -/
def linkedWith (piece : Octets) : Files.Tree :=
  ⟨linked.entries ++ [([".c.json.tmp"], .file piece)]⟩

theorem create_linked : linked.create [] ".c.json.tmp" = .ok (linkedWith []) := by
  have tmp : Spells ".c.json.tmp" [".c.json.tmp"] := by decide +kernel
  rw [create, tmp.resolve (.free (by decide) (by decide) rfl)]
  rfl

/-- The save replaces the link by a file, and the file that it led to stays. -/
theorem runAll_linked (content : Octets) :
    runAll [] (linkedWith []) (steps "c.json" [content]) =
      (.ok (), ⟨[(["o.json"], .file (.ofText "other")), (["c.json"], .file content)]⟩) := by
  have spells : Spells "c.json" ["c.json"] := by decide +kernel
  have tmp : Spells ".c.json.tmp" [".c.json.tmp"] := by decide +kernel
  have there : (linkedWith []).resolve [] ".c.json.tmp" = .ok (.taken [".c.json.tmp"] (.file [])) :=
    tmp.resolve (.file (by decide) (by decide) rfl)
  refine @runAll_steps _ _ _ "" ".c.json.tmp" (linkedWith []) (linkedWith content) _ _
    (by decide +kernel) (by decide +kernel) rfl ?_ ?_ ?_
  · rw [create, there]
    rfl
  · exact write_whole there
  · rw [move, tmp.resolveKept (.file (by decide) (by decide) rfl)]
    dsimp only [bind, Except.bind]
    rw [spells.resolveKept (.kept rfl (by decide) (by decide) rfl)]
    rfl

/-- What a linter says with `[{"type":"ERROR","at":[[1]]}]`. -/
def said : Messages := [⟨none, none, .error, [("at", .arr [.arr [.int 1]])]⟩]

theorem exact_said : ∀ m ∈ said.relabel "a.js", ∀ p ∈ m.properties, ∀ x, Json.HasFloat x p.2 →
    Json.ReadsBack x := by
  intro m mem p inProperties x float
  obtain rfl := List.mem_singleton.mp mem
  obtain rfl := List.mem_singleton.mp inProperties
  obtain _ | ⟨mem, float⟩ := float
  obtain rfl := List.mem_singleton.mp mem
  obtain _ | ⟨mem, float⟩ := float
  obtain rfl := List.mem_singleton.mp mem
  cases float

/-- A save is stopped when it has made the temporary file, and then one comes to its end. -/
theorem store_linked : ∃ c files,
    History (·.Settled [] "c.json") [] "c.json" [.saved, .notSaved, .inserted] c files ∧
      c.isDirty = false ∧ c.entries ≠ [] ∧ (load files [] "c.json").entries = c.entries := by
  have begun : History (·.Settled [] "c.json") [] "c.json" [] { path := "c.json" } linked := by
    rw [← load_linked]
    exact .load settled_linked (by rw [load_linked]; exact List.forall_mem_nil _)
  have output : Messages.ofOutput "[\x7b\"type\":\"ERROR\",\"at\":[[1]]\x7d]" = .ok said := rfl
  let clock : Time.Instant := ⟨⟨2024, 5, 6⟩, 3, 0⟩
  have put := History.insert "a" "lint" "a.js" clock begun output (by decide)
    ⟨by decide +kernel, exact_said⟩
  generalize isPut : ({ path := "c.json" } : Cache).insert "a" "lint" (said.relabel "a.js") clock = c
    at put
  have path : c.path = "c.json" := by
    rw [← isPut]
    rfl
  have stopped : Interrupted [] linked c.plan (linkedWith []) := by
    rw [plan, path, steps_eq "" ".c.json.tmp" (by decide +kernel) (by decide +kernel)]
    refine .later rfl (.later ?_ (.stopped .before))
    rw [Step.run, create_linked]
    rfl
  have ran := runAll_linked (.ofText c.text)
  rw [show steps "c.json" [.ofText c.text] = c.plan by rw [plan, path]] at ran
  have saved := History.save (.stop put stopped) (save_eq_ok_iff.mpr ⟨ran, rfl⟩)
  refine ⟨_, _, saved, rfl, ?_, saved.store.2 rfl⟩
  rw [← isPut]
  exact List.cons_ne_nil _ _

end

/-! ### Files that are not settled -/

/-- Some history of a cache that begins with these files, and in which nobody else changes
them, comes to a cache that is not marked and is not the one in its file. -/
def Strays (start : Files.Tree) (path : String) : Prop :=
  ∃ events c files, History (· = start) [] path events c files ∧ c.isDirty = false ∧
    (load files [] path).entries ≠ c.entries

section

open Files.Tree Files.AtomicWrite

def single (path : String) : Cache := { path, entries := [("a", ⟨"lint", ⟨⟨2024, 5, 6⟩, 3, 0⟩, []⟩)] }

theorem exact_single (path : String) : ∀ e ∈ (single path).entries, e.2.Exact := by
  intro e mem
  rw [List.mem_singleton.mp mem]
  exact ⟨by decide +kernel, List.forall_mem_nil _⟩

/-- An entry without messages lasts. -/
theorem lasts_silent {c : Cache} {key command : String} {clock : Time.Instant}
    (entries : c.entries = [(key, ⟨command, clock, []⟩)])
    (exact : Time.Instant.ofText? clock.text = some clock) : c.Lasts where
  ordered := by
    rw [entries]
    exact List.pairwise_singleton _ _
  entries e mem := by
    rw [entries] at mem
    rw [List.mem_singleton.mp mem]
    exact @Entry.lasts valueDepth _ (List.forall_mem_nil _) (List.forall_mem_nil _)
      ⟨exact, List.forall_mem_nil _⟩

theorem lasts_single (path : String) : (single path).Lasts := lasts_silent rfl (by decide +kernel)

/-! A save that fails can make the file visible: the directory before the `..` stays. -/

/-- The path goes up from `x`, and the temporary file is `.c.json.tmp` above it. -/
structure Detours (path up above temporary : String) : Prop where
  parent : Files.Path.parent? path.toList = some up.toList
  isTemporary : temporary? path.toList = some temporary
  spells : Spells path ["x", "..", "c.json"]
  spellsUp : Spells up ["x", ".."]
  spellsAbove : Spells above ["x"]
  spellsTemporary : Spells temporary ["x", "..", ".c.json.tmp"]
  ancestors : [up.toList, above.toList] <+: Files.Path.ancestors up.toList

section

variable {files : Files.Tree} {path up above temporary : String}
  (detours : Detours path up above temporary)
include detours

/-- Where `x` is missing, nothing is found at the path. -/
theorem Detours.readText (missing : files.entry? ["x"] = none) :
    (files.readText [] path).toOption = none := by
  refine readText_of_noFile fun loc content found => ?_
  rw [detours.spells.resolve_eq, startOf_root, walk_none (by decide) (by decide) missing] at found
  cases found

/-- A save then makes `x`, and leaves it when the temporary file cannot be made. -/
theorem Detours.save (missing : files.entry? ["x"] = none) {c : Cache} (isPath : c.path = path)
    (blocked : files.entry? [".c.json.tmp"] = some .dir) :
    ∃ e, c.save files [] = (.error e, c, files.set ["x"] .dir) := by
  have made : Step.run [] files (.makeParent up) = (.ok (), files.set ["x"] .dir) :=
    run_makeParent_up above detours.spellsUp detours.spellsAbove detours.ancestors (by decide)
      (by decide) missing
  have blocked' : entry? (files.set ["x"] .dir) [".c.json.tmp"] = some .dir := by
    rw [entry?_set_of_ne (by decide), blocked]
  have notCreated : (files.set ["x"] .dir).create [] temporary = .error .isDirectory := by
    have walks : (files.set ["x"] .dir).Walks true linkMax false (startOf [] temporary)
        ["x", "..", ".c.json.tmp"] (.taken [".c.json.tmp"] .dir) := by
      rw [startOf_root]
      exact .down (by decide) (by decide) (entry?_set_self (by decide) files .dir)
        (.up (.down (by decide) (by decide) blocked' .stop))
    rw [create, detours.spellsTemporary.resolve walks]
    rfl
  refine ⟨.notSaved (.noTemporary temporary .isDirectory), ?_⟩
  rw [Cache.save, Files.Tree.replaceContent, isPath,
    steps_eq up temporary detours.parent detours.isTemporary, runAll, made]
  dsimp only
  rw [runAll, Step.run, notCreated]
  rfl

/-- Once `x` is made, what is at `c.json` is read at the path. -/
theorem Detours.read {content : Octets} (there : files.entry? ["c.json"] = some (.file content)) :
    (files.set ["x"] .dir).read [] path = .ok content := by
  have there' : entry? (files.set ["x"] .dir) ["c.json"] = some (.file content) := by
    rw [entry?_set_of_ne (by decide), there]
  have walks : (files.set ["x"] .dir).Walks true linkMax false (startOf [] path)
      ["x", "..", "c.json"] (.taken ["c.json"] (.file content)) := by
    rw [startOf_root]
    exact .down (by decide) (by decide) (entry?_set_self (by decide) files .dir)
      (.up (.file (by decide) (by decide) there'))
  rw [Files.Tree.read, find, detours.spells.resolve walks]
  rfl

end

def behindMissing : Files.Tree :=
  ⟨[(["c.json"], .file (.ofText (single "x/../c.json").text)), ([".c.json.tmp"], .dir)]⟩

/-- The save fails, but leaves the directory behind which the path stands for another file. -/
theorem strays_behindMissing : Strays behindMissing "x/../c.json" := by
  have detours : Detours "x/../c.json" "x/.." "x" "x/../.c.json.tmp" := by
    constructor <;> decide +kernel
  have loaded : load behindMissing [] "x/../c.json" = { path := "x/../c.json" } :=
    load_of_readText_error (detours.readText rfl)
  have path : (load behindMissing [] "x/../c.json").path = "x/../c.json" := by rw [loaded]
  have missing : behindMissing.entry? ["x"] = none := rfl
  obtain ⟨e, failed⟩ := detours.save missing path rfl
  refine ⟨[.notSaved], _, _, .fail (.load rfl ?_) failed, by rw [loaded], ?_⟩
  · rw [loaded]
    exact List.forall_mem_nil _
  · rw [entries_load_of_read (lasts_single _) (detours.read rfl), loaded]
    exact List.cons_ne_nil _ _

/-! A save that succeeds can hide it. -/

/-- What is put in is lost if nothing can be read at the path after it was saved. -/
theorem strays_of_saved {start : Files.Tree} (after : Octets → Files.Tree)
    (unread : (start.readText [] path).toOption = none)
    (saved : ∀ content, runAll [] start (steps path [content]) = (.ok (), after content))
    (hidden : ∀ content, ((after content).readText [] path).toOption = none) :
    Strays start path := by
  have loaded := load_of_readText_error unread
  have begun : History (· = start) [] path [] (load start [] path) start := by
    refine .load rfl ?_
    rw [loaded]
    exact List.forall_mem_nil _
  have said : Messages.ofOutput "" = .ok [] := rfl
  have put := History.insert "a" "lint" "a.js" ⟨⟨2024, 5, 6⟩, 3, 0⟩ begun said
    (List.forall_mem_nil _) (exact_single path _ List.mem_cons_self)
  rw [loaded] at put
  refine ⟨_, _, _, .save put (save_eq_ok_iff.mpr ⟨saved _, rfl⟩), rfl, ?_⟩
  rw [load_of_readText_error (hidden _)]
  exact (List.cons_ne_nil _ _).symm

/-- The temporary path is a link to the path: the link is moved, and leads to itself. -/
def swapped : Files.Tree := ⟨[([".c.json.tmp"], .link "c.json")]⟩

/-- Nothing can be read at the path after the save. -/
theorem strays_swapped : Strays swapped "c.json" := by
  have spells : Spells "c.json" ["c.json"] := by decide +kernel
  have tmp : Spells ".c.json.tmp" [".c.json.tmp"] := by decide +kernel
  have create : swapped.create [] ".c.json.tmp" = .ok (linkedTo []) := by
    rw [Files.Tree.create, tmp.resolve (.link (by decide) (by decide) rfl (.inr (.inl rfl))
      (.free (by decide) (by decide) rfl))]
    rfl
  refine strays_of_saved (fun _ => looped)
    (readText_of_noFile fun loc content found => ?_) (runAll_linkedTo create) fun _ => ?_
  · rw [spells.resolve_eq, startOf_root, walk_none (by decide) (by decide) rfl] at found
    cases found
  · rw [toOption_readText, read_looped]
    rfl

/-- The path goes through the link that it stands for itself: the link is replaced by a file. -/
def crossed : Files.Tree :=
  ⟨[(["l"], .link "sub"), (["sub"], .dir), (["sub", "x"], .link "..")]⟩

/-- The way to the directory goes from the link through `sub` and up again. -/
theorem walks_crossed {t : Files.Tree} {follow : Bool} {name : String} {place : Files.Place}
    (l : t.entry? ["l"] = some (.link "sub")) (sub : t.entry? ["sub"] = some .dir)
    (x : t.entry? ["sub", "x"] = some (.link ".."))
    (last : t.Walks follow 38 false [] [name] place) :
    t.Walks follow linkMax false [] ["l", "x", name] place :=
  .link (by decide) (by decide) l (.inl (List.cons_ne_nil _ _))
    (.down (by decide) (by decide) sub
      (.link (by decide) (by decide) x (.inl (List.cons_ne_nil _ _)) (.up last)))

theorem strays_crossed : Strays crossed "l/x/l" := by
  have spells : Spells "l/x/l" ["l", "x", "l"] := by decide +kernel
  have tmp : Spells "l/x/.l.tmp" ["l", "x", ".l.tmp"] := by decide +kernel
  refine strays_of_saved
    (fun content => ⟨[(["sub"], .dir), (["sub", "x"], .link ".."), (["l"], .file content)]⟩)
    (readText_of_noFile fun loc content found => ?_) (fun content => ?_)
    (fun _ => readText_of_noFile fun loc content found => ?_)
  · rw [spells.resolve_eq, startOf_root, Walks.walk_eq (walks_crossed rfl rfl rfl
      (.link (by decide) (by decide) rfl (.inr (.inl rfl))
        (.down (by decide) (by decide) rfl .stop)))] at found
    cases found
  · let written (piece : Octets) : Files.Tree := ⟨crossed.entries ++ [([".l.tmp"], .file piece)]⟩
    have there : crossed.isThere [] "l/x" = true := by
      have dir : Spells "l/x" ["l", "x"] := by decide +kernel
      rw [isThere, find, dir.resolve (.link (by decide) (by decide) rfl (.inl (List.cons_ne_nil _ _))
        (.down (by decide) (by decide) rfl
          (.link (by decide) (by decide) rfl (.inr (.inl rfl)) (.up .stop))))]
      rfl
    refine @runAll_steps _ _ _ "l/x" "l/x/.l.tmp" (written []) (written content) _ _
      (by decide +kernel) (by decide +kernel) there ?_ ?_ ?_
    · rw [create, tmp.resolve (walks_crossed rfl rfl rfl (.free (by decide) (by decide) rfl))]
      rfl
    · have found : (written []).resolve [] "l/x/.l.tmp" = .ok (.taken [".l.tmp"] (.file [])) :=
        tmp.resolve (walks_crossed rfl rfl rfl (.file (by decide) (by decide) rfl))
      exact write_whole found
    · rw [move, tmp.resolveKept (walks_crossed rfl rfl rfl (.file (by decide) (by decide) rfl))]
      dsimp only [bind, Except.bind]
      rw [spells.resolveKept (walks_crossed rfl rfl rfl (.kept rfl (by decide) (by decide) rfl))]
      rfl
  · rw [spells.resolve_eq, startOf_root, walk_file (by decide) (by decide) rfl] at found
    cases found

/-- The path is a link to the temporary path: what was read there is gone with it. -/
def shared : Files.Tree :=
  ⟨[(["c.json"], .link ".c.json.tmp"), ([".c.json.tmp"], .file (.ofText (single "c.json").text))]⟩

theorem strays_shared : Strays shared "c.json" := by
  have spells : Spells "c.json" ["c.json"] := by decide +kernel
  have tmp : Spells ".c.json.tmp" [".c.json.tmp"] := by decide +kernel
  let emptied : Files.Tree := ⟨[(["c.json"], .link ".c.json.tmp"), ([".c.json.tmp"], .file [])]⟩
  have loaded : (load shared [] "c.json").entries = (single "c.json").entries := by
    refine entries_load_of_read (lasts_single _) ?_
    rw [Files.Tree.read, find, spells.resolve
      (.link (by decide) (by decide) rfl (.inr (.inl rfl)) (.file (by decide) (by decide) rfl))]
    rfl
  have created : Step.run [] shared (.create ".c.json.tmp") = (.ok (), emptied) := by
    rw [Step.run, create, tmp.resolve (.file (by decide) (by decide) rfl)]
    rfl
  have stopped : Interrupted [] shared (plan (load shared [] "c.json")) emptied := by
    rw [plan, show (load shared [] "c.json").path = "c.json" by rw [load_eq],
      steps_eq "" ".c.json.tmp" (by decide +kernel) (by decide +kernel)]
    exact .later rfl (.later created (.stopped .before))
  have unread : (load emptied [] "c.json").entries = [] := by
    have text : emptied.readText [] "c.json" = .ok "" := readText_eq_ok_iff.mpr ⟨_, _, spells.resolve
      (.link (by decide) (by decide) rfl (.inr (.inl rfl)) (.file (by decide) (by decide) rfl)), rfl⟩
    rw [load_eq, text]
    rfl
  refine ⟨[.notSaved], _, _, .stop (.load rfl ?_) stopped, ?_, ?_⟩
  · rw [loaded]
    exact exact_single _
  · rw [load_eq]
  · rw [unread, loaded]
    exact (List.cons_ne_nil _ _).symm

end

/-- **Files must be settled.** -/
theorem not_store : Strays behindMissing "x/../c.json" ∧ Strays swapped "c.json" ∧
    Strays crossed "l/x/l" ∧ Strays shared "c.json" :=
  ⟨strays_behindMissing, strays_swapped, strays_crossed, strays_shared⟩

end PatchLint.Cache
