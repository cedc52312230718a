import PatchLint.Proofs.Check.Effect

/-!
Checks one after the other, on the files that they leave to each other.

A run finds what the last one left, the cache among it. Between two runs the files change, a save
that was going on may have been stopped, and caches may get lost. What is at the path of a cache
is always no cache, or one that some run saved (`CacheFile.Known`), and this is all it takes:

* `Run.EndsWith.known`: what a run leaves at the path of its cache was there before, or the run
  saved it.
* `Run.History.usable`: so every run finds and saves caches with messages on the right lines.
* `cache_transparent`: so no run reports anything else than it would without a cache.

Nothing may keep a save from going where it should: the files must be settled at the path.

* `not_cache_transparent`: else a save that fails can make a cache visible that nobody saved.
-/

namespace PatchLint.Check

open PatchLint.Lint (Message Messages)
open PatchLint.Files.Tree (startOf startOf_startOf readText_congr)

/-! ### Files of caches -/

/-- Where a cache is kept: its path, and where the walk down this path starts. -/
structure CacheFile where
  start : Files.Location
  path : String

namespace CacheFile

/-- The text in the file. -/
def text? (file : CacheFile) (files : Files.Tree) : Option String :=
  (files.readText file.start file.path).toOption

/-- The content of the file can be replaced safely. -/
def Settled (file : CacheFile) (files : Files.Tree) : Prop := files.Settled file.start file.path

/-- There is no cache in the file, or one that some run saved. -/
def Known (file : CacheFile) (runs : List Run) (files : Files.Tree) : Prop :=
  ∀ text, file.text? files = some text →
    Cache.entriesOfText? text = none ∨ ∃ run ∈ runs, ∃ c, run.Saves c ∧ text = c.text

variable {file : CacheFile} {runs : List Run} {files files' : Files.Tree}

/-- More runs make no difference to what is known. -/
theorem Known.cons (known : file.Known runs files) (run : Run) :
    file.Known (run :: runs) files := by
  intro text there
  refine (known text there).imp_right fun ⟨saver, mem, saved⟩ => ?_
  exact ⟨saver, List.mem_cons_of_mem _ mem, saved⟩

/-- The text alone decides whether a cache is known. -/
theorem Known.of_text_eq (known : file.Known runs files)
    (same : file.text? files' = file.text? files) : file.Known runs files' := by
  intro text there
  exact known text (same ▸ there)

end CacheFile

namespace Run

/-! ### What a run leaves -/

def cacheFile (run : Run) (r : Repository) : CacheFile :=
  ⟨startOf run.host.directory r.cachePath, r.cachePath⟩

/-- The run sees the file from its own directory. -/
theorem text?_cacheFile (run : Run) (r : Repository) (files : Files.Tree) :
    (run.cacheFile r).text? files =
      (files.readText run.host.directory r.cachePath).toOption :=
  congrArg Except.toOption (readText_congr (startOf_startOf run.host.directory r.cachePath))

/-- The run uses the cache in this file. -/
def Uses (run : Run) (file : CacheFile) : Prop :=
  ∃ r, run.repository = .ok r ∧ run.useCache r = true ∧ run.cacheFile r = file

/-- A run uses no cache but that of its repository. -/
theorem Uses.eq {run : Run} {r : Repository} {file : CacheFile} (uses : run.Uses file)
    (found : run.repository = .ok r) : file = run.cacheFile r := by
  obtain ⟨r', other, -, rfl⟩ := uses
  cases found.symm.trans other
  rfl

/-- The files after a run: as the program leaves them, or as they are when the save of the cache
fails or is stopped on the way. -/
inductive EndsWith (run : Run) : Files.Tree → Prop
  | left : EndsWith run (Program.check run.host run.arguments).files
  | stopped {c : Cache} {files : Files.Tree} : run.Saves c →
      Files.AtomicWrite.Interrupted run.host.directory run.host.files c.plan files →
      EndsWith run files

/-- Insertions do not change the path of a cache. -/
theorem collect_path (command : String) (clock : Time.Instant) (c : Cache)
    (results : List FileResult) : (collect command clock c results).path = c.path := by
  induction results generalizing c with
  | nil => rfl
  | cons result results ih =>
      cases fresh : result.fresh with
      | none => rw [collect_cons_none fresh, ih]
      | some entry =>
          obtain ⟨key, ms⟩ := entry
          rw [collect_cons_some fresh, ih]
          rfl

/-- What a run saves belongs to the file of its cache. -/
theorem Saves.uses {run : Run} {c : Cache} (saves : run.Saves c) :
    ∃ r, run.repository = .ok r ∧ run.useCache r = true ∧ c.path = r.cachePath := by
  obtain ⟨f, finds, saved⟩ := saves
  rw [findings_eq] at finds
  obtain ⟨r, repository, finds⟩ := bind_eq_ok.mp finds
  obtain ⟨linter, -, finds⟩ := bind_eq_ok.mp finds
  obtain ⟨paths, -, finds⟩ := bind_eq_ok.mp finds
  obtain ⟨results, -, finds⟩ := bind_eq_ok.mp finds
  cases finds
  cases use : run.useCache r with
  | false =>
      rw [use] at saved
      cases saved
  | true =>
      simp only [use, if_true] at saved
      have kept : (some (collect linter.command run.host.clock (run.loaded r) results)).filter
          (·.isDirty) = some c := saved
      obtain ⟨collected, -⟩ := Option.filter_eq_some_iff.mp kept
      refine ⟨r, repository, use, ?_⟩
      rw [← Option.some.inj collected, collect_path, loaded, Cache.load_eq]

/-- After a run the files are as before, or its save has come to its end or was stopped. -/
theorem EndsWith.cases {run : Run} {files : Files.Tree} (ends : run.EndsWith files) :
    files = run.host.files ∨ ∃ c, run.Saves c ∧
      (Files.AtomicWrite.runAll run.host.directory run.host.files c.plan = (.ok (), files) ∨
        Files.AtomicWrite.Interrupted run.host.directory run.host.files c.plan files) := by
  cases ends with
  | stopped saves stopped => exact .inr ⟨_, saves, .inr stopped⟩
  | left =>
      refine (files_check_cases run).imp_right fun ⟨c, saves⟩ => ⟨c, saves, ?_⟩
      rw [files_check saves]
      rcases outcome : c.save run.host.files run.host.directory with ⟨e | u, c', files⟩
      · exact .inr (Cache.save_eq_error outcome).1
      · exact .inl (Cache.save_eq_ok_iff.mp outcome).1

/-- A run that uses no cache leaves the files as they are. -/
theorem EndsWith.unchanged {run : Run} {files : Files.Tree} (ends : run.EndsWith files)
    (unused : ∀ file, ¬ run.Uses file) : files = run.host.files := by
  rcases ends.cases with same | ⟨c, saves, -⟩
  · exact same
  · obtain ⟨r, found, use, -⟩ := saves.uses
    exact absurd ⟨r, found, use, rfl⟩ (unused (run.cacheFile r))

/-- **What a run leaves in the file of its cache** was there before, or the run saved it. -/
theorem EndsWith.known {run : Run} {file : CacheFile} {runs : List Run} {files : Files.Tree}
    (ends : run.EndsWith files) (uses : run.Uses file)
    (inside : run.host.files.entry? run.host.directory = some .dir)
    (settled : file.Settled run.host.files) (known : file.Known runs run.host.files) :
    file.Settled files ∧ file.Known (run :: runs) files := by
  obtain ⟨r, repository, -, rfl⟩ := uses
  -- The walk down the path starts at the same place from the run's directory.
  have same : startOf run.host.directory r.cachePath =
      startOf (run.cacheFile r).start r.cachePath :=
    (startOf_startOf _ _).symm
  have settled' : run.host.files.Settled run.host.directory r.cachePath :=
    Files.Tree.Settled.congr same settled inside
  have back {after : Files.Tree} (settled : after.Settled run.host.directory r.cachePath) :
      (run.cacheFile r).Settled after :=
    Files.Tree.Settled.congr same.symm settled (Files.Tree.isDirectory_startOf settled.inside _)
  rcases ends.cases with rfl | ⟨c, saves, saved⟩
  · exact ⟨settled, known.cons run⟩
  obtain ⟨r', found, -, path⟩ := saves.uses
  cases repository.symm.trans found
  unfold Cache.plan at saved
  rw [path] at saved
  rcases saved with ran | stopped
  · obtain ⟨after, read⟩ := Files.AtomicWrite.read_of_runAll settled' ran
    rw [List.flatten_singleton] at read
    refine ⟨back after, fun text there => .inr ⟨run, List.mem_cons_self, c, saves, ?_⟩⟩
    have written : files.readText run.host.directory r.cachePath = .ok c.text := by
      simp only [Files.Tree.readText, read, bind, Except.bind, pure, Except.pure,
        Octets.text?_ofText]
    rw [text?_cacheFile, written] at there
    exact (Option.some.inj there).symm
  · have keeps := (Files.AtomicWrite.preserves_of_interrupted settled' stopped).keeps
    refine ⟨back keeps.settled, (known.cons run).of_text_eq ?_⟩
    rw [text?_cacheFile, text?_cacheFile, keeps.same]

/-! ### Histories -/

/-- Runs, the latest first, and the files that they have left. The runs keep their caches in the
files `caches`, and `others` says how the files may be at first, and may be left by anyone else. -/
inductive History (sites : Host → Repository → Prop) (caches : CacheFile → Prop)
    (others : CacheFile → Files.Tree → Prop) : List Run → Files.Tree → Prop where
  /-- At first there is no cache. -/
  | start {files : Files.Tree} :
      (∀ file, caches file → others file files ∧ file.Known [] files) →
      History sites caches others [] files
  /-- A run on the files as they are. If it uses a cache, other caches may be changed with its own,
  but it puts no other cache there. -/
  | run {runs : List Run} {run : Run} {files : Files.Tree} :
      History sites caches others runs run.host.files → run.At sites →
      (∀ file, run.Uses file → caches file ∧
        run.host.files.entry? run.host.directory = some .dir) →
      run.EndsWith files →
      (∀ own file, run.Uses own → caches file → file ≠ own →
        others file files ∧ file.Known (run :: runs) files) →
      History sites caches others (run :: runs) files
  /-- Something else is done to the files, but nobody else puts a cache there. -/
  | elsewhere {runs : List Run} {files files' : Files.Tree} :
      History sites caches others runs files →
      (∀ file, caches file → others file files' ∧ file.Known runs files') →
      History sites caches others runs files'

variable {caches : CacheFile → Prop} {runs : List Run} {files : Files.Tree}

/-- If there is one file only, a history goes on as the program does. -/
theorem History.check {file : CacheFile} {others : CacheFile → Files.Tree → Prop} (run : Run)
    (history : History sites (· = file) others runs run.host.files) (site : run.At sites)
    (own : ∀ other, run.Uses other → other = file)
    (inside : run.host.files.entry? run.host.directory = some .dir) :
    History sites (· = file) others (run :: runs) (Program.check run.host run.arguments).files := by
  refine .run history site (fun other uses => ⟨own other uses, inside⟩) .left ?_
  intro other same uses isFile apart
  exact absurd (isFile.trans (own other uses).symm) apart

/-- **At every point of a history**, what is in the file of a cache is no cache or was saved by a
run. -/
theorem History.known (history : History sites caches CacheFile.Settled runs files)
    {file : CacheFile} (mem : caches file) : file.Settled files ∧ file.Known runs files := by
  induction history with
  | start begun => exact begun file mem
  | @run runs run files _ _ own ends aside ih =>
      by_cases used : ∃ file, run.Uses file
      · obtain ⟨other, uses⟩ := used
        by_cases same : file = other
        · subst same
          exact ends.known uses (own file uses).2 ih.1 ih.2
        · exact aside other file uses mem same
      · rw [ends.unchanged (not_exists.mp used)]
        exact ⟨ih.1, ih.2.cons run⟩
  | elsewhere _ changed _ => exact changed file mem

/-- What a run finds is usable if what was saved before is. -/
theorem usable_of_known {run : Run} {r : Repository}
    (saved : ∀ saver ∈ runs, ∀ c, saver.Saves c → Usable sites verdict c)
    (known : (run.cacheFile r).Known runs run.host.files) :
    Usable sites verdict (run.loaded r) := by
  refine usable_loaded fun text content => ?_
  have there : (run.cacheFile r).text? run.host.files = some text := by
    rw [text?_cacheFile, content]
    rfl
  refine (known text there).imp_right fun ⟨saver, mem, c, saves, written⟩ => ?_
  exact ⟨c, saved saver mem c saves, written⟩

/-- In a history, what is found and what is saved is usable. -/
theorem History.usable (steady : Steady sites verdict)
    (history : History sites caches CacheFile.Settled runs files) :
    ∀ run ∈ runs, run.At sites ∧
      (∀ r, run.repository = .ok r → run.useCache r = true →
        Usable sites verdict (run.loaded r)) ∧
      ∀ c, run.Saves c → Usable sites verdict c := by
  induction history with
  | start =>
      intro run mem
      cases mem
  | @run runs last files earlier site own _ _ ih =>
      intro run mem
      rcases List.mem_cons.mp mem with rfl | mem
      -- What the last run finds was saved by an earlier one, and so is usable.
      · have loaded : ∀ r, run.repository = .ok r → run.useCache r = true →
            Usable sites verdict (run.loaded r) := by
          intro r repository use
          have cached := (own _ ⟨r, repository, use, rfl⟩).1
          exact usable_of_known (fun saver mem => (ih saver mem).2.2) (earlier.known cached).2
        exact ⟨site, loaded, fun c saves => saves.usable steady site loaded⟩
      · exact ih run mem
  | elsewhere _ _ ih => exact ih

/-- **Every run of a history comes to the same as it would without a cache.** -/
theorem History.findings (steady : Steady sites verdict)
    (history : History sites caches CacheFile.Settled runs files) :
    ∀ run ∈ runs,
      run.findings.map Findings.reported = run.uncached.findings.map Findings.reported := by
  intro run mem
  obtain ⟨site, loaded, -⟩ := history.usable steady run mem
  exact findings_cached steady site fun r repository use => (loaded r repository use).faithful

end Run

/-- **The cache makes no difference.** With a sound cache, a file comes to the messages or to
the error that it comes to without one, and what is handed back keeps every cache sound that
it is put into. So every run of a history comes to what it comes to without a cache. -/
theorem cache_transparent {sites : Host → Repository → Prop} {verdict : Verdict}
    (steady : Steady sites verdict) :
    (∀ host r linter base path (c : Cache), sites host r →
      Linter.ofCommand linter.command = .ok linter → c.Sound sites verdict →
      (((⟨r, linter, base, some c⟩ : Job).checkFile path).result host).map FileResult.messages =
        (((⟨r, linter, base, none⟩ : Job).checkFile path).result host).map FileResult.messages ∧
      ∀ found key ms, ((⟨r, linter, base, some c⟩ : Job).checkFile path).result host = .ok found →
        found.fresh = some (key, ms) → ∀ (c' : Cache) (clock : Time.Instant),
          c'.Sound sites verdict → (c'.insert key linter.command ms clock).Sound sites verdict) ∧
    ∀ caches runs files, Run.History sites caches CacheFile.Settled runs files → ∀ run ∈ runs,
      run.findings.map Findings.reported = run.uncached.findings.map Findings.reported := by
  constructor
  · intro host r linter base path c site ofCommand sound
    have agree := Job.checkFile_cached base path steady site ofCommand sound.faithful
    refine ⟨agree.messages, ?_⟩
    intro found key ms checked fresh c' clock sound'
    obtain ⟨id, content, identifies, rfl, said⟩ := agree.linted found checked key ms fresh
    exact sound'.insert steady (fun _ => rfl) identifies said clock
  · intro caches runs files history
    exact history.findings steady

/-! ### Two runs, the second of which finds what the first saved -/

/-- A run whose tools these are is at one of the sites. -/
theorem Tooling.at_site {t : Tooling} {run : Run} {r : Repository} (site : t.Site run.host r)
    (found : run.repository = .ok r) : run.At t.Site := by
  intro r' other
  cases found.symm.trans other
  exact site

namespace OneFile

open Files.Tree

def file : CacheFile := ⟨[], cachePath⟩

/-- The first run saves what it has linted. -/
theorem prepared_saves : prepared.Saves saved :=
  firstOn_saves rfl (there_besides []) (load_besides rfl)

/-- The files that the first run leaves. -/
theorem files_prepared : (Program.check prepared.host prepared.arguments).files =
    besides [([".lintdelta", "cache.json"], .file (.ofText saved.text))] := by
  let after (content : Octets) : Files.Tree :=
    besides [([".lintdelta", "cache.json"], .file content)]
  have path : saved.path = cachePath := rfl
  have done := save_eq after path runAll_saving
  rw [files_check prepared_saves]
  exact congrArg (fun saving => saving.2.2) done

/-- The file of the cache then has the text of what was saved. -/
theorem text?_prepared :
    file.text? (Program.check prepared.host prepared.arguments).files = some saved.text := by
  have resolved : (besides [([".lintdelta", "cache.json"], .file (.ofText saved.text))]).resolve []
      cachePath = .ok (.taken [".lintdelta", "cache.json"] (.file (.ofText saved.text))) :=
    spells_cachePath.resolve (walks_below rfl (.file (by decide) (by decide) rfl))
  rw [files_prepared, CacheFile.text?, toOption_eq_some]
  exact readText_eq_ok_iff.mpr ⟨_, _, resolved, Octets.text?_ofText _⟩

/-- The second run finds what the first has left, and compares with another base. -/
def second : Run where
  host := ⟨(Program.check prepared.host prepared.arguments).files, [], answering tooling.answer, [],
    ⟨⟨2024, 5, 7⟩, 0, 0⟩⟩
  arguments := { paths := ["a.js"], base := some "3", vcs := some .svn }

/-- The two runs are a history, each on the files that the program leaves. -/
theorem history : Run.History tooling.Site (· = file) CacheFile.Settled [second, prepared]
    (Program.check second.host second.arguments).files := by
  have found_prepared : prepared.repository = .ok repository := Tooling.repository_unset rfl rfl rfl
  have plain : second.host.files.entry? [".lintdelta.yaml"] = none := by
    rw [show second.host.files = _ from files_prepared]
    rfl
  have found_second : second.repository = .ok repository := Tooling.repository_unset rfl rfl plain
  have begun : Run.History tooling.Site (· = file) CacheFile.Settled [] prepared.host.files := by
    refine .start ?_
    rintro _ rfl
    refine ⟨settled_besides, fun text there => ?_⟩
    cases there.symm.trans (readText_besides rfl : file.text? (besides []) = none)
  have once := begun.check prepared (Tooling.at_site (site rfl) found_prepared)
    (fun _ uses => uses.eq found_prepared) rfl
  exact once.check second (Tooling.at_site (site rfl) found_second)
    (fun _ uses => uses.eq found_second) rfl

/-- What was saved is what the linter says. -/
theorem saved_sound : saved.Sound tooling.Site tooling.verdict := by
  have identifies : Identifies tooling.Site "a.js" "r4" "a\n" :=
    ⟨first.host, repository, "BASE", site rfl, Tooling.idAt_eq (site rfl) _ _,
      Tooling.contentAt_eq (site rfl) _ _⟩
  have empty : ({ path := "/.lintdelta/cache.json" } : Cache).Sound tooling.Site tooling.verdict :=
    Cache.soundUpTo_empty rfl
  have sound := empty.insert tooling.steady (fun _ => rfl) identifies (linted _) first.host.clock
  rw [key_eq] at sound
  exact sound

end OneFile

/-- The second of two runs comes to what it comes to without the cache that the first has left,
and so does the check of the file with that cache. -/
theorem cache_transparent_second_run :
    Steady OneFile.tooling.Site OneFile.tooling.verdict ∧
      OneFile.prepared.Saves OneFile.saved ∧
      OneFile.second.host.files =
        (Program.check OneFile.prepared.host OneFile.prepared.arguments).files ∧
      OneFile.file.text? OneFile.second.host.files = some OneFile.saved.text ∧
      OneFile.second.findings.map Findings.reported =
        OneFile.second.uncached.findings.map Findings.reported ∧
      (((⟨OneFile.repository, OneFile.linter, "3", some OneFile.saved⟩ : Job).checkFile
        "a.js").result OneFile.second.host).map FileResult.messages =
      (((⟨OneFile.repository, OneFile.linter, "3", none⟩ : Job).checkFile
        "a.js").result OneFile.second.host).map FileResult.messages := by
  obtain ⟨files, runs⟩ := cache_transparent OneFile.tooling.steady
  refine ⟨OneFile.tooling.steady, OneFile.prepared_saves, rfl, OneFile.text?_prepared, ?_, ?_⟩
  · exact runs _ _ _ OneFile.history OneFile.second List.mem_cons_self
  · exact (files OneFile.second.host OneFile.repository OneFile.linter "3" "a.js" OneFile.saved
      (OneFile.site rfl) rfl OneFile.saved_sound).1

/-! ### A cache that nobody saved -/

namespace Foreign

open Files.Tree
open PatchLint.Cache (Detours)

/-- The first line of the file is as it was, and the linter complains about it. -/
def tooling : Tooling :=
  ⟨"@@ -1,2 +1,2 @@\n a\n-b\n+c\n", "a\nb\n", OneFile.tooling.said⟩

def repository : Repository := ⟨"/", { cachePath := "x/../c.json" }, some "/.lintdelta.yaml", .svn⟩

def cachePath : String := "/x/../c.json"

def settingsText : String := "cache_path: x/../c.json\n"

/-- A cache of somebody else, by which the linter has nothing to say about the base revision. -/
def cache : Cache where
  path := cachePath
  entries := [("a.js@r4", ⟨OneFile.linter.command, ⟨⟨2024, 5, 6⟩, 3, 0⟩, []⟩)]

/-- The cache is not found at its path as long as there is no directory `x`. -/
def files : Files.Tree :=
  ⟨[(["a.js"], .file (.ofText "a\nc\n")), ([".lintdelta.yaml"], .file (.ofText settingsText)),
    (["c.json"], .file (.ofText cache.text)), ([".c.json.tmp"], .dir)]⟩

/-- A run on these files or others. -/
def runOn (files : Files.Tree) : Run where
  host := ⟨files, [], answering tooling.answer, [], ⟨⟨2024, 5, 6⟩, 0, 0⟩⟩
  arguments := { paths := ["a.js"], vcs := some .svn }

/-- The path of the cache goes up from a directory that is missing. -/
theorem detours : Detours cachePath "/x/.." "/x" "/x/../.c.json.tmp" := by
  constructor <;> decide +kernel

theorem ofYaml_settingsText :
    Settings.ofYaml settingsText = .ok { cachePath := "x/../c.json" } := by
  have read : (Settings.ofYaml settingsText).toOption = some { cachePath := "x/../c.json" } := by
    decide +kernel
  exact toOption_eq_some.mp read

theorem linted (content : String) :
    tooling.verdict OneFile.linter.command "a.js" content = .ok [OneFile.complaint] := by
  have answers : tooling.answer (OneFile.linter.argumentsFor "a.js") = tooling.said := by decide
  have read : Messages.ofOutput tooling.said = .ok [⟨some 1, none, .error, []⟩] := rfl
  exact Tooling.verdict_eq OneFile.ofCommand answers read content

theorem site {host : Host} (tooled : host.tools = answering tooling.answer) :
    tooling.Site host repository := ⟨tooled, rfl, rfl⟩

/-- What is found is what is left of the complaint, by what was said about the base revision. -/
theorem findings_eq (run : Run) (cache : Option Cache)
    (tooled : run.host.tools = answering tooling.answer)
    (directory : run.host.directory = [])
    (there : run.host.files.entry? ["a.js"] = some (.file (.ofText "a\nc\n")))
    (paths : run.arguments.paths = ["a.js"]) (found : run.repository = .ok repository)
    (uses : (if run.useCache repository then some (run.loaded repository) else none) = cache)
    {old kept : Messages} {fresh : Option (String × Messages)}
    (before : ((⟨repository, OneFile.linter, run.base repository, cache⟩ : Job).oldMessages "a.js"
      (some tooling.base)).result run.host = .ok (old, fresh))
    (filtered : Messages.introducedBy { records := [.kept 1 1, .removed 2, .added 2] } old
      [OneFile.complaint] = .ok kept) :
    run.findings = .ok (run.concluded repository OneFile.linter cache [⟨kept, fresh⟩]) := by
  have selected :
      (selectFiles repository run.arguments.paths (run.base repository)).result run.host =
        .ok ["a.js"] := by
    rw [paths]
    exact Tooling.selectFiles_eq rfl directory there
  have map : Diff.LineMap.ofText tooling.diff =
      .ok { records := [.kept 1 1, .removed 2, .added 2] } := rfl
  exact Run.findings_of_file found OneFile.ofCommand selected uses
    (Tooling.checkFile_eq (site tooled) OneFile.ofCommand linted directory there map rfl rfl before
      filtered)

/-! The first run finds no cache, and saves one, or so it means to. -/

theorem repository_first : (runOn files).repository = .ok repository :=
  Tooling.repository_set rfl rfl rfl ofYaml_settingsText

theorem saves_first : ∃ c, (runOn files).Saves c ∧ c.path = cachePath := by
  have loaded : (runOn files).loaded repository = { path := cachePath } :=
    Cache.load_of_readText_error (detours.readText rfl)
  have uses : (if (runOn files).useCache repository then some ((runOn files).loaded repository)
      else none) = some { path := cachePath } := by
    rw [loaded]
    rfl
  have unknown : Cache.get? { path := cachePath } (Cache.key "a.js" "r4") OneFile.linter.command =
      none := rfl
  have atSite : tooling.Site (runOn files).host repository := site rfl
  have before := Tooling.oldMessages_fresh "BASE" atSite OneFile.ofCommand linted unknown
  exact ⟨_, ⟨_, findings_eq _ _ rfl rfl rfl rfl repository_first uses before rfl, rfl⟩, rfl⟩

/-- The first run makes the directory, and its save fails behind that. -/
theorem files_first : (Program.check (runOn files).host (runOn files).arguments).files =
    files.set ["x"] .dir := by
  obtain ⟨c, saves, path⟩ := saves_first
  have missing : files.entry? ["x"] = none := rfl
  obtain ⟨e, failed⟩ := detours.save missing path rfl
  rw [files_check saves]
  exact congrArg (fun saving => saving.2.2) failed

/-! The second run finds the cache of somebody else. -/

def second : Run := runOn (Program.check (runOn files).host (runOn files).arguments).files

theorem files_second : second.host.files = files.set ["x"] .dir := files_first

theorem repository_second : second.repository = .ok repository := by
  refine Tooling.repository_set rfl rfl ?_ ofYaml_settingsText
  rw [files_second]
  rfl

theorem there_second : second.host.files.entry? ["a.js"] = some (.file (.ofText "a\nc\n")) := by
  rw [files_second]
  rfl

/-- So only the second run finds the cache at its path, and believes it. -/
theorem findings_second : second.findings.map Findings.reported ≠
    second.uncached.findings.map Findings.reported := by
  have entries : (second.loaded repository).entries = cache.entries := by
    have lasts : cache.Lasts := Cache.lasts_silent rfl (by decide +kernel)
    have read : second.host.files.read [] cachePath = .ok (.ofText cache.text) := by
      rw [files_second]
      exact detours.read rfl
    exact Cache.entries_load_of_read lasts read
  have hit : (second.loaded repository).get? (Cache.key "a.js" "r4") OneFile.linter.command =
      some [] := by
    rw [Cache.get?, entries, OneFile.key_eq]
    rfl
  have cached := findings_eq second (some (second.loaded repository)) rfl rfl there_second rfl
    repository_second rfl (Tooling.oldMessages_cached _ (site rfl) hit) rfl
  have uncached := findings_eq second.uncached none rfl rfl there_second rfl repository_second rfl
    (Tooling.oldMessages_uncached _ (site rfl) OneFile.ofCommand linted) rfl
  rw [cached, uncached]
  intro same
  cases same

end Foreign

/-- **Files must be settled** where a cache is kept: of two runs that have these files to
themselves, the second reports what it would not report without a cache. -/
theorem not_cache_transparent :
    ¬ ∀ (sites : Host → Repository → Prop) (verdict : Verdict), Steady sites verdict →
      ∀ caches runs files, Run.History sites caches (fun _ _ => True) runs files →
        ∀ run ∈ runs,
          run.findings.map Findings.reported = run.uncached.findings.map Findings.reported := by
  intro transparent
  let file : CacheFile := ⟨[], Foreign.cachePath⟩
  have begun : Run.History Foreign.tooling.Site (· = file) (fun _ _ => True) []
      (Foreign.runOn Foreign.files).host.files := by
    refine .start ?_
    rintro _ rfl
    refine ⟨trivial, fun text there => ?_⟩
    cases there.symm.trans (Foreign.detours.readText rfl : file.text? Foreign.files = none)
  have once := begun.check (Foreign.runOn Foreign.files)
    (Tooling.at_site (Foreign.site rfl) Foreign.repository_first)
    (fun _ uses => uses.eq Foreign.repository_first) rfl
  have twice := once.check Foreign.second
    (Tooling.at_site (Foreign.site rfl) Foreign.repository_second)
    (fun _ uses => uses.eq Foreign.repository_second) rfl
  exact Foreign.findings_second
    (transparent _ _ Foreign.tooling.steady _ _ _ twice Foreign.second List.mem_cons_self)

end PatchLint.Check
