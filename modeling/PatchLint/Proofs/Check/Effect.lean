import PatchLint.Program
import PatchLint.Proofs.Cache.Store
import PatchLint.Proofs.Check.Renewed
import PatchLint.Proofs.Files.Plain

/-!
What a check leaves behind: its report, and the cache.

* `check_effect`: a run that fails, or uses no cache, or lints nothing for it changes no file. Any
  other saves the cache that it found with what was linted in it. Whether this can be saved makes
  no difference to the report.

What is saved is at the path after that if the files are settled there.

* `not_check_effect`: else a save that succeeds can hide it.
-/

namespace PatchLint.Check

open PatchLint.Lint (Message Messages)

namespace Run

/-- The run checks these files of the repository with the linter. -/
structure Checks (run : Run) (r : Repository) (linter : Linter) (files : List String) : Prop where
  found : run.repository = .ok r
  command : Linter.ofCommand r.settings.linterCommand = .ok linter
  selected : (selectFiles r run.arguments.paths (run.base r)).result run.host = .ok files

/-- How the run checks a file, if it uses a cache. -/
def job (run : Run) (r : Repository) (linter : Linter) : Job :=
  ⟨r, linter, run.base r, some (run.loaded r)⟩

/-- The base revision of a file is linted for the cache. -/
def Lints (run : Run) (r : Repository) (linter : Linter) (files : List String) : Prop :=
  ∃ file ∈ files, ∃ key ms, (run.job r linter).Renews run.host file key ms

/-- The cache is in the file that it belongs to, and is what is loaded from there, if the numbers
and instants in it are read back and what was put in is not nested too deep. -/
structure InFile (run : Run) (r : Repository) (linter : Linter) (files : List String)
    (cache : Cache) (after : Files.Tree) : Prop where
  content : after.read run.host.directory r.cachePath = .ok (.ofText cache.text)
  loads : (∀ e ∈ cache.entries, e.2.Exact) →
    (∀ file ∈ files, ∀ key ms, (run.job r linter).Renews run.host file key ms →
      ∀ m ∈ ms, ∀ p ∈ m.properties, p.2.nesting ≤ Cache.valueDepth) →
    (Cache.load after run.host.directory r.cachePath).entries = cache.entries

/-- What the files are after a run that does not fail. -/
inductive Leaves (run : Run) (after : Files.Tree) : Prop where
  | uncached {r : Repository} {linter : Linter} {files : List String}
      (checks : run.Checks r linter files) (off : run.useCache r = false)
      (untouched : after = run.host.files)
  | nothingNew {r : Repository} {linter : Linter} {files : List String}
      (checks : run.Checks r linter files) (on : run.useCache r = true)
      (nothing : ¬ run.Lints r linter files) (untouched : after = run.host.files)
  | saved {r : Repository} {linter : Linter} {files : List String} {cache : Cache}
      (checks : run.Checks r linter files) (on : run.useCache r = true)
      (lints : run.Lints r linter files)
      (renewal : (run.job r linter).Renewal run.host files (run.loaded r) cache)
      (ordered : cache.entries.Ordered)
      (saved : cache.save run.host.files run.host.directory =
        (.ok (), { cache with isDirty := false }, after))
      (there : run.host.files.Settled run.host.directory r.cachePath →
        run.InFile r linter files cache after)
  | notSaved {r : Repository} {linter : Linter} {files : List String} {cache : Cache} {e : Error}
      (checks : run.Checks r linter files) (on : run.useCache r = true)
      (lints : run.Lints r linter files)
      (renewal : (run.job r linter).Renewal run.host files (run.loaded r) cache)
      (failed : cache.save run.host.files run.host.directory = (.error e, cache, after))
      (same : run.host.files.Settled run.host.directory r.cachePath →
        (after.read run.host.directory r.cachePath).toOption =
          (run.host.files.read run.host.directory r.cachePath).toOption)

/-- What a run comes to. -/
inductive Effect (run : Run) (ending : Ending) : Prop where
  | failed {e : Error} (fails : run.findings = .error e) (output : ending.output = "")
      (failure : ending.failure = some e) (untouched : ending.files = run.host.files)
  | reported {f : Findings} (finds : run.findings = .ok f) (output : ending.output = f.report)
      (failure : ending.failure = f.failure) (leaves : run.Leaves ending.files)

/-! ### Saving -/

section

variable {run : Run} {r : Repository} {linter : Linter} {files : List String} {cache : Cache}

/-- A cache that is to be saved is saved, or the path reads as before. -/
theorem leaves_of_lints (checks : run.Checks r linter files) (on : run.useCache r = true)
    (lints : run.Lints r linter files)
    (renewal : (run.job r linter).Renewal run.host files (run.loaded r) cache) :
    run.Leaves (Program.saveCache run.host (some cache)) := by
  have wereRead := Cache.wereRead_load run.host.files run.host.directory r.cachePath
  have path : cache.path = r.cachePath := by
    rw [renewal.path, loaded, Cache.load_eq]
  generalize outcome : cache.save run.host.files run.host.directory = saving
  obtain ⟨result, cache', after⟩ := saving
  have left : Program.saveCache run.host (some cache) = after := by
    rw [Program.saveCache, outcome]
  rw [left]
  cases result with
  | ok u =>
      obtain ⟨ran, rfl⟩ := Cache.save_eq_ok_iff.mp outcome
      refine .saved checks on lints renewal (renewal.ordered wereRead.1) outcome fun settled => ?_
      rw [Cache.plan, path] at ran
      obtain ⟨-, read⟩ := Files.AtomicWrite.read_of_runAll settled ran
      rw [List.flatten_singleton] at read
      refine ⟨read, fun exact nests => ?_⟩
      exact Cache.entries_load_of_read (renewal.lasts wereRead.1 wereRead.2 exact nests) read
  | error e =>
      obtain ⟨stopped, rfl⟩ := Cache.save_eq_error outcome
      refine .notSaved checks on lints renewal outcome fun settled => ?_
      rw [Cache.plan, path] at stopped
      exact (Files.AtomicWrite.preserves_of_interrupted settled stopped).same

/-- A run that comes to its end leaves the files so. -/
theorem leaves_of_findings {f : Findings} (finds : run.findings = .ok f) :
    run.Leaves (Program.saveCache run.host f.cache) := by
  rw [findings_eq] at finds
  obtain ⟨r, found, finds⟩ := bind_eq_ok.mp finds
  obtain ⟨linter, command, finds⟩ := bind_eq_ok.mp finds
  obtain ⟨files, selected, finds⟩ := bind_eq_ok.mp finds
  obtain ⟨results, checked, finds⟩ := bind_eq_ok.mp finds
  cases finds
  have checks : run.Checks r linter files := ⟨found, command, selected⟩
  cases use : run.useCache r with
  | false =>
      simp only [concluded]
      exact .uncached checks use rfl
  | true =>
      simp only [use, if_true] at checked
      have renewal : (run.job r linter).Renewal run.host files (run.loaded r)
          (collect linter.command run.host.clock (run.loaded r) results) :=
        (run.job r linter).renewal_collect checked (run.loaded r)
      -- A cache that was just loaded is not marked, so the mark says whether anything was linted.
      have clean : (run.loaded r).isDirty = false := by rw [loaded, Cache.load_eq]
      have marked : (collect linter.command run.host.clock (run.loaded r) results).isDirty = true ↔
          run.Lints r linter files := by
        rw [renewal.marked, clean]
        exact or_iff_right Bool.false_ne_true
      simp only [concluded, if_true, Option.map_some, Option.filter_some]
      by_cases lints : run.Lints r linter files
      · rw [if_pos (marked.mpr lints)]
        exact leaves_of_lints checks use lints renewal
      · rw [if_neg (mt marked.mp lints)]
        exact .nothingNew checks use lints rfl

end

end Run

/-- **What a check leaves behind.** -/
theorem check_effect (run : Run) : run.Effect (Program.check run.host run.arguments) := by
  unfold Program.check Program.ending
  rcases outcome : (Check.run run.arguments).run run.host with ⟨e | f, calls⟩
  · have fails : run.findings = .error e := congrArg Prod.fst outcome
    exact .failed fails rfl rfl rfl
  · have finds : run.findings = .ok f := congrArg Prod.fst outcome
    exact .reported finds rfl rfl (Run.leaves_of_findings finds)

/-! ### Runs on one file -/

namespace OneFile

open Files.Tree Files.AtomicWrite

def cachePath : String := "/.lintdelta/cache.json"

def temporary : String := "/.lintdelta/.cache.json.tmp"

theorem spells_cachePath : Spells cachePath [".lintdelta", "cache.json"] := by decide +kernel

theorem spells_temporary : Spells temporary [".lintdelta", ".cache.json.tmp"] := by decide +kernel

/-- What is in the directory of the cache is found there. -/
theorem walks_below {t : Files.Tree} (isDir : entry? t [".lintdelta"] = some .dir) {follow : Bool}
    {name : String} {place : Files.Place}
    (walks : t.Walks follow linkMax false [".lintdelta"] [name] place) :
    t.Walks follow linkMax false [] [".lintdelta", name] place :=
  .down (by decide) (by decide) isDir walks

/-- The file, and the directory of the cache with these entries. -/
def besides (entries : List (Files.Location × Files.Entry)) : Files.Tree :=
  ⟨[(["a.js"], .file (.ofText "b\n")), ([".lintdelta"], .dir)] ++ entries⟩

section

variable (entries : List (Files.Location × Files.Entry))

/-- The checked file is there whatever the directory of the cache holds. -/
theorem there_besides :
    entry? (besides entries) ["a.js"] = some (.file (.ofText "b\n")) := rfl

theorem isThere_besides : (besides entries).isThere [] "/.lintdelta" = true := by
  have spells : Spells "/.lintdelta" [".lintdelta"] := by decide +kernel
  rw [isThere, Files.Tree.find, spells.resolve (.down (by decide) (by decide) rfl .stop)]
  rfl

end

section

variable {entries : List (Files.Location × Files.Entry)}

/-- Without a cache in its directory, nothing is read at the path. -/
theorem readText_besides (absent : entry? (besides entries) [".lintdelta", "cache.json"] = none) :
    ((besides entries).readText [] cachePath).toOption = none := by
  refine readText_of_noFile fun loc content found => ?_
  have resolved : (besides entries).resolve [] cachePath =
      .ok (.free [".lintdelta", "cache.json"] false) :=
    spells_cachePath.resolve (walks_below rfl (.free (by decide) (by decide) absent))
  cases resolved.symm.trans found

theorem load_besides (absent : entry? (besides entries) [".lintdelta", "cache.json"] = none) :
    Cache.load (besides entries) [] cachePath = { path := cachePath } :=
  Cache.load_of_readText_error (readText_besides absent)

/-- The steps of saving, where the directory is there. -/
theorem runAll_besides {created written moved : Files.Tree} {content : Octets}
    (create : (besides entries).create [] temporary = .ok created)
    (write : created.write [] temporary 0 content = .ok written)
    (move : written.move [] temporary cachePath = .ok moved) :
    runAll [] (besides entries) (steps cachePath [content]) = (.ok (), moved) :=
  runAll_steps "/.lintdelta" temporary (by decide +kernel) (by decide +kernel)
    (by rw [isThere_besides, Bool.or_true]) create write move

end

/-! Without a link, the cache is at its path after that. -/

def saving (content : Octets) : Files.Tree :=
  besides [([".lintdelta", ".cache.json.tmp"], .file content)]

/-- The save makes the file and leaves no temporary one. -/
theorem runAll_saving (content : Octets) :
    runAll [] (besides []) (steps cachePath [content]) =
      (.ok (), besides [([".lintdelta", "cache.json"], .file content)]) := by
  have create : (besides []).create [] temporary = .ok (saving []) := by
    rw [Files.Tree.create, spells_temporary.resolve
      (walks_below rfl (.free (by decide) (by decide) rfl))]
    rfl
  have found : (saving []).resolve [] temporary =
      .ok (.taken [".lintdelta", ".cache.json.tmp"] (.file [])) :=
    spells_temporary.resolve (walks_below rfl (.file (by decide) (by decide) rfl))
  have move : (saving content).move [] temporary cachePath =
      .ok (besides [([".lintdelta", "cache.json"], .file content)]) := by
    rw [Files.Tree.move, spells_temporary.resolveKept
      (walks_below rfl (.file (by decide) (by decide) rfl))]
    dsimp only [bind, Except.bind]
    rw [spells_cachePath.resolveKept
      (walks_below rfl (.free (by decide) (by decide) rfl))]
    rfl
  exact runAll_besides create (write_whole found) move

/-! If the temporary path is a link to the path, the cache is written through the link, and then
the link is moved over it. -/

def withLink (entries : List (Files.Location × Files.Entry)) : Files.Tree :=
  besides (([".lintdelta", ".cache.json.tmp"], .link "cache.json") :: entries)

def hidden : Files.Tree := besides [([".lintdelta", "cache.json"], .link "cache.json")]

/-- The save writes through the link, and moves the link over the path. -/
theorem runAll_withLink (content : Octets) :
    runAll [] (withLink []) (steps cachePath [content]) = (.ok (), hidden) := by
  have create : (withLink []).create [] temporary =
      .ok (withLink [([".lintdelta", "cache.json"], .file [])]) := by
    rw [Files.Tree.create, spells_temporary.resolve (walks_below rfl
      (.link (by decide) (by decide) rfl (.inr (.inl rfl))
        (.free (by decide) (by decide) rfl)))]
    rfl
  have found : (withLink [([".lintdelta", "cache.json"], .file [])]).resolve [] temporary =
      .ok (.taken [".lintdelta", "cache.json"] (.file [])) :=
    spells_temporary.resolve (walks_below rfl
      (.link (by decide) (by decide) rfl (.inr (.inl rfl))
        (.file (by decide) (by decide) rfl)))
  have move : (withLink [([".lintdelta", "cache.json"], .file content)]).move [] temporary
      cachePath = .ok hidden := by
    rw [Files.Tree.move, spells_temporary.resolveKept
      (walks_below rfl (.kept rfl (by decide) (by decide) rfl))]
    dsimp only [bind, Except.bind]
    rw [spells_cachePath.resolveKept
      (walks_below rfl (.file (by decide) (by decide) rfl))]
    rfl
  exact runAll_besides create (write_whole found) move

/-- A link to itself cannot be read. -/
theorem read_hidden : (hidden.read [] cachePath).toOption = none := by
  refine read_of_noFile fun loc content found => ?_
  rw [spells_cachePath.resolve_eq, startOf_root, walk_dir (by decide) (by decide) rfl,
    walk_self_link (by decide) (by decide) rfl (by decide +kernel) (by decide +kernel)
      (by decide +kernel)] at found
  cases found

/-! What the run saves. -/

/-- A save whose steps come to an end leaves what they lead to. -/
theorem save_eq {before : Files.Tree} (after : Octets → Files.Tree) {cache : Cache}
    (path : cache.path = cachePath)
    (ran : ∀ content, runAll [] before (steps cachePath [content]) = (.ok (), after content)) :
    cache.save before [] =
      (.ok (), { cache with isDirty := false }, after (.ofText cache.text)) := by
  refine Cache.save_eq_ok_iff.mpr ⟨?_, rfl⟩
  rw [Cache.plan, path]
  exact ran _

end OneFile

/-- What a check leaves of the files, by what it finds out. -/
theorem files_check_eq (run : Run) : (Program.check run.host run.arguments).files =
    match run.findings with
    | .error _ => run.host.files
    | .ok f => Program.saveCache run.host f.cache := by
  rcases outcome : (Check.run run.arguments).run run.host with ⟨result, calls⟩
  have same : run.findings = result := congrArg Prod.fst outcome
  unfold Program.check Program.ending
  rw [outcome, same]
  cases result with
  | error e => rfl
  | ok f => rfl

/-- A check that saves a cache leaves the files that saving leaves. -/
theorem files_check {run : Run} {cache : Cache} (saves : run.Saves cache) :
    (Program.check run.host run.arguments).files =
      (cache.save run.host.files run.host.directory).2.2 := by
  obtain ⟨f, finds, toSave⟩ := saves
  rw [files_check_eq, finds]
  dsimp only
  rw [toSave]
  rfl

/-- A check leaves the files as they are, or saves a cache. -/
theorem files_check_cases (run : Run) :
    (Program.check run.host run.arguments).files = run.host.files ∨ ∃ cache, run.Saves cache := by
  rw [files_check_eq]
  cases finds : run.findings with
  | error e => exact .inl rfl
  | ok f =>
      cases toSave : f.cache with
      | none =>
          dsimp only
          rw [toSave]
          exact .inl rfl
      | some cache => exact .inr ⟨cache, f, finds, toSave⟩

namespace OneFile

open Files.Tree

/-- The first run, with the directory of the cache. -/
def prepared : Run := firstOn (besides [])

/-- The path of the cache is settled in these files. -/
theorem settled_besides : (besides []).Settled [] cachePath := by
  have plain : (besides []).Plain [] := plain_of_entries (by decide) (by simp [besides])
  exact plain.settled (.inr (by decide +kernel))

theorem checks_prepared {r : Repository} {linter : Linter} {files : List String}
    (checks : prepared.Checks r linter files) :
    r = repository ∧ linter = OneFile.linter ∧ files = ["a.js"] := by
  obtain ⟨found, command, selected⟩ := checks
  have found' : prepared.repository = .ok repository := Tooling.repository_unset rfl rfl rfl
  cases found'.symm.trans found
  have command' : Linter.ofCommand repository.settings.linterCommand = .ok OneFile.linter := rfl
  cases command'.symm.trans command
  have selected' : (selectFiles repository prepared.arguments.paths
      (prepared.base repository)).result prepared.host = .ok ["a.js"] :=
    Tooling.selectFiles_eq rfl rfl (there_besides [])
  cases selected'.symm.trans selected
  exact ⟨rfl, rfl, rfl⟩

/-- The one file is linted anew, and its messages are kept for the next run. -/
theorem renews_prepared : (prepared.job repository linter).Renews prepared.host "a.js" "a.js@r4"
    [complaint] := by
  have loaded : prepared.loaded repository = { path := cachePath } := load_besides rfl
  rw [Run.job, loaded]
  exact (Job.fresh_eq_some_iff (checkFile_eq rfl rfl (there_besides []))).mp rfl

end OneFile

/-- The first run of two saves what it linted, if the directory of the cache is there. -/
theorem check_effect_prepared :
    ∃ cache : Cache,
      (Program.check OneFile.prepared.host OneFile.prepared.arguments).files.read []
        OneFile.cachePath = .ok (.ofText cache.text) ∧
      cache.entries.get? "a.js@r4" =
        some ⟨OneFile.linter.command, OneFile.first.host.clock, [OneFile.complaint]⟩ := by
  have saves : OneFile.prepared.Saves OneFile.saved :=
    OneFile.firstOn_saves rfl (OneFile.there_besides []) (OneFile.load_besides rfl)
  obtain ⟨f, finds, -⟩ := saves
  cases check_effect OneFile.prepared with
  | failed fails => cases finds.symm.trans fails
  | reported _ _ _ leaves =>
      cases leaves with
      | uncached checks off =>
          obtain ⟨rfl, rfl, rfl⟩ := OneFile.checks_prepared checks
          cases off
      | nothingNew checks _ nothing =>
          obtain ⟨rfl, rfl, rfl⟩ := OneFile.checks_prepared checks
          exact absurd ⟨_, List.mem_cons_self, _, _, OneFile.renews_prepared⟩ nothing
      | @saved r linter files cache checks _ _ renewal _ _ there =>
          obtain ⟨rfl, rfl, rfl⟩ := OneFile.checks_prepared checks
          refine ⟨cache, (there OneFile.settled_besides).content, ?_⟩
          refine renewal.own ?_ List.mem_cons_self OneFile.renews_prepared
          intro file _ id hasId
          cases (Tooling.idAt_eq (OneFile.site rfl) _ _).symm.trans hasId
          decide
      | @notSaved r linter files cache e checks _ _ renewal failed =>
          obtain ⟨rfl, rfl, rfl⟩ := OneFile.checks_prepared checks
          have path : cache.path = OneFile.cachePath := by
            rw [renewal.path, Run.loaded, Cache.load_eq]
            rfl
          cases (OneFile.save_eq _ path OneFile.runAll_saving).symm.trans failed

/-- **Not every cache that is saved is loaded again.** -/
theorem not_check_effect :
    ¬ ∀ (run : Run) (cache : Cache), run.Saves cache →
      (cache.save run.host.files run.host.directory).1 = .ok () →
      (Cache.load (Program.check run.host run.arguments).files run.host.directory
        cache.path).entries = cache.entries := by
  intro loads
  have saves : (OneFile.firstOn (OneFile.withLink [])).Saves OneFile.saved :=
    OneFile.firstOn_saves rfl (OneFile.there_besides _) (OneFile.load_besides rfl)
  have saved : OneFile.saved.save (OneFile.withLink []) [] =
      (.ok (), { OneFile.saved with isDirty := false }, OneFile.hidden) :=
    OneFile.save_eq (fun _ => OneFile.hidden) rfl OneFile.runAll_withLink
  have same := loads _ _ saves (congrArg Prod.fst saved)
  have unread : (OneFile.hidden.readText [] OneFile.cachePath).toOption = none := by
    rw [Files.Tree.toOption_readText, OneFile.read_hidden]
    rfl
  rw [files_check saves] at same
  change (Cache.load (OneFile.saved.save (OneFile.withLink []) []).2.2 [] OneFile.cachePath).entries =
    OneFile.saved.entries at same
  rw [saved, Cache.load_of_readText_error unread] at same
  cases same

end PatchLint.Check
