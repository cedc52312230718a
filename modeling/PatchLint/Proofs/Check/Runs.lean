import PatchLint.Proofs.Check.Cached
import PatchLint.Proofs.Files.Places
import PatchLint.Text.Octets

/-!
One run of the check, with a cache and without.

A run that uses a cache finds one, or none, and may go to save one. Whatever it finds, it comes to
what it comes to without a cache, as long as what it finds holds messages on the right lines.

* `findings_cached`: a run reports the same as without a cache, if it finds such a cache.
* `Saves.usable`: such a run saves such a cache.
* `usable_loaded`: a cache that was saved is such a cache when it is loaded.
-/

namespace PatchLint.Check

open PatchLint.Lint (Message Messages)

/-- A run of the check: what it finds and what it is told. -/
structure Run where
  host : Host
  arguments : CheckArguments

namespace Findings

/-- What is found, apart from the cache that is to be saved. -/
def reported (f : Findings) : Findings := { f with cache := none }

end Findings

namespace Run

def findings (run : Run) : Except Error Findings := (Check.run run.arguments).result run.host

/-- The same run, told not to use a cache. -/
def uncached (run : Run) : Run :=
  { run with arguments := { run.arguments with noCache := true } }

def repository (run : Run) : Except Error Repository :=
  (Repository.find run.arguments.config run.arguments.vcs).result run.host

def base (run : Run) (r : Repository) : String := run.arguments.base.getD r.vcs.defaultBase

def useCache (run : Run) (r : Repository) : Bool :=
  r.settings.cacheEnabled && !run.arguments.noCache

def loaded (run : Run) (r : Repository) : Cache :=
  Cache.load run.host.files run.host.directory r.cachePath

/-- What the run makes of the files, once all is known that it needs for them. -/
def concluded (run : Run) (r : Repository) (linter : Linter) (cache : Option Cache)
    (results : List FileResult) : Findings where
  messages := results.flatMap (·.messages)
  base := run.base r
  format := run.arguments.format.getD r.settings.format
  failOnWarnings := run.arguments.failOnWarnings || r.settings.failOnWarnings
  cache := (cache.map fun c => collect linter.command run.host.clock c results).filter (·.isDirty)

/-- The steps of a run. -/
theorem findings_eq (run : Run) :
    run.findings = run.repository.bind fun r =>
      (Linter.ofCommand r.settings.linterCommand).bind fun linter =>
        ((selectFiles r run.arguments.paths (run.base r)).result run.host).bind fun files =>
          let cache := if run.useCache r then some (run.loaded r) else none
          (files.mapM fun path =>
            (Job.checkFile ⟨r, linter, run.base r, cache⟩ path).result run.host).bind fun results =>
              .ok (run.concluded r linter cache results) := by
  unfold findings Check.run repository
  simp only [Session.result_bind, Session.result_ofExcept, Session.result_look,
    Session.result_forAll, Session.result_pure, Except.bind]
  rfl

/-- The steps of a run that checks one file. -/
theorem findings_of_file {run : Run} {r : Repository} {linter : Linter} {path : String}
    {cache : Option Cache} {result : FileResult} (found : run.repository = .ok r)
    (command : Linter.ofCommand r.settings.linterCommand = .ok linter)
    (selected : (selectFiles r run.arguments.paths (run.base r)).result run.host = .ok [path])
    (uses : (if run.useCache r then some (run.loaded r) else none) = cache)
    (checked : (Job.checkFile ⟨r, linter, run.base r, cache⟩ path).result run.host = .ok result) :
    run.findings = .ok (run.concluded r linter cache [result]) := by
  rw [findings_eq, found]
  simp only [Except.bind, command, selected, uses, List.mapM_cons, List.mapM_nil, checked]
  rfl

/-- What is reported depends on the messages of the files alone. -/
theorem map_reported_concluded (run : Run) (r : Repository) (linter : Linter)
    (cache : Option Cache) (results : Except Error (List FileResult)) :
    (results.bind fun rs => .ok (run.concluded r linter cache rs)).map Findings.reported =
      (results.map (List.map FileResult.messages)).map fun mss =>
        { messages := mss.flatten
          base := run.base r
          format := run.arguments.format.getD r.settings.format
          failOnWarnings := run.arguments.failOnWarnings || r.settings.failOnWarnings
          cache := none } := by
  cases results with
  | error e => rfl
  | ok rs => rfl

theorem useCache_uncached (run : Run) (r : Repository) : run.uncached.useCache r = false :=
  Bool.and_false _

variable {sites : Host → Repository → Prop} {verdict : Verdict}

/-- The repository of the run is a site. -/
def At (run : Run) (sites : Host → Repository → Prop) : Prop :=
  ∀ r, run.repository = .ok r → sites run.host r

/-- **A run with a cache comes to the same as one without**, if the cache that it finds holds
messages on the right lines. -/
theorem findings_cached (steady : Steady sites verdict) {run : Run} (site : run.At sites)
    (faithful : ∀ r, run.repository = .ok r → run.useCache r = true →
      (run.loaded r).Faithful sites verdict) :
    run.findings.map Findings.reported = run.uncached.findings.map Findings.reported := by
  rw [findings_eq, findings_eq]
  refine map_bind_congr fun r found => map_bind_congr fun linter command =>
    map_bind_congr fun files _ => ?_
  rw [useCache_uncached]
  cases use : run.useCache r with
  | false => rfl
  | true =>
      have ofCommand := Linter.ofCommand_command command
      -- File by file the results differ in what is handed back for the cache, but not in the
      -- messages, and only these are reported.
      have same : (fun path => ((Job.checkFile ⟨r, linter, run.base r, some (run.loaded r)⟩
            path).result run.host).map FileResult.messages) =
          fun path => ((Job.checkFile ⟨r, linter, run.base r, none⟩ path).result
            run.host).map FileResult.messages :=
        funext fun path =>
          (Job.checkFile_cached (run.base r) path steady (site r found) ofCommand
            (faithful r found use)).messages
      simp only [if_true]
      rw [map_reported_concluded, map_mapM, same, ← map_mapM]
      exact (map_reported_concluded run r linter none _).symm

/-! ### Caches that are saved -/

def Saves (run : Run) (c : Cache) : Prop :=
  ∃ f, run.findings = .ok f ∧ f.cache = some c

/-- A cache that is of use to later runs: it holds messages on the right lines, and their
records can be told. -/
structure Usable (sites : Host → Repository → Prop) (verdict : Verdict) (c : Cache) : Prop where
  faithful : c.Faithful sites verdict
  unambiguous : c.entries.Unambiguous

/-- A file that was not linted for the cache puts nothing in. -/
theorem collect_cons_none {result : FileResult} (fresh : result.fresh = none) {command : String}
    {clock : Time.Instant} {c : Cache} {results : List FileResult} :
    collect command clock c (result :: results) = collect command clock c results := by
  simp only [collect, List.foldl_cons, fresh]

/-- A file that was linted for it puts its messages in before the later files do. -/
theorem collect_cons_some {result : FileResult} {key : String} {ms : Messages}
    (fresh : result.fresh = some (key, ms)) {command : String} {clock : Time.Instant} {c : Cache}
    {results : List FileResult} :
    collect command clock c (result :: results) =
      collect command clock (c.insert key command ms clock) results := by
  simp only [collect, List.foldl_cons, fresh]

/-- Putting in what was linted keeps a cache usable. -/
theorem usable_collect (steady : Steady sites verdict) {host : Host} {r : Repository}
    (site : sites host r) {linter : Linter}
    (ofCommand : Linter.ofCommand linter.command = .ok linter) (clock : Time.Instant)
    {results : List FileResult}
    (linted : ∀ result ∈ results, ∃ path, Linted sites verdict linter.command path result.fresh)
    {c : Cache} (usable : Usable sites verdict c) :
    Usable sites verdict (collect linter.command clock c results) := by
  induction results generalizing c with
  | nil => exact usable
  | cons result results ih =>
      obtain ⟨path, first⟩ := linted result List.mem_cons_self
      have others : ∀ other ∈ results,
          ∃ path, Linted sites verdict linter.command path other.fresh :=
        fun other mem => linted other (List.mem_cons_of_mem _ mem)
      cases fresh : result.fresh with
      | none =>
          rw [collect_cons_none fresh]
          exact ih others usable
      | some entry =>
          obtain ⟨key, ms⟩ := entry
          obtain ⟨id, content, identifies, rfl, said⟩ := first key ms fresh
          rw [collect_cons_some fresh]
          refine ih others ⟨usable.faithful.insert steady (fun _ => rfl) identifies said clock, ?_⟩
          intro p mem
          rcases Cache.Entries.mem_of_mem_put mem with rfl | mem
          · exact Linter.unambiguous_of_lint
              ((steady.linter path content site ofCommand).trans said)
          · exact usable.unambiguous p mem

/-- **A run that finds a usable cache saves a usable one.** -/
theorem Saves.usable (steady : Steady sites verdict) {run : Run} (site : run.At sites)
    (loaded : ∀ r, run.repository = .ok r → run.useCache r = true →
      Usable sites verdict (run.loaded r)) {c : Cache} (saves : run.Saves c) :
    Usable sites verdict c := by
  obtain ⟨f, found, saved⟩ := saves
  rw [findings_eq] at found
  obtain ⟨r, repository, found⟩ := bind_eq_ok.mp found
  obtain ⟨linter, command, found⟩ := bind_eq_ok.mp found
  obtain ⟨files, -, found⟩ := bind_eq_ok.mp found
  obtain ⟨results, checked, found⟩ := bind_eq_ok.mp found
  cases found
  have ofCommand := Linter.ofCommand_command command
  cases use : run.useCache r with
  | false =>
      rw [use] at saved
      cases saved
  | true =>
      simp only [use, if_true] at checked saved
      have kept : (some (collect linter.command run.host.clock (run.loaded r) results)).filter
          (·.isDirty) = some c := saved
      obtain ⟨collected, -⟩ := Option.filter_eq_some_iff.mp kept
      cases collected
      refine usable_collect steady (site r repository) ofCommand run.host.clock ?_
        (loaded r repository use)
      intro result mem
      obtain ⟨path, -, one⟩ := exists_of_mem_mapM_ok checked mem
      exact ⟨path, (Job.checkFile_cached (run.base r) path steady (site r repository) ofCommand
        (loaded r repository use).faithful).linted result one⟩

/-- A run that finds what another saved, or nothing that can be read, has a usable cache. -/
theorem usable_loaded {run : Run} {r : Repository}
    (found : ∀ text, run.host.files.readText run.host.directory r.cachePath = .ok text →
      Cache.entriesOfText? text = none ∨ ∃ c, Usable sites verdict c ∧ text = c.text) :
    Usable sites verdict (run.loaded r) := by
  have empty : Usable sites verdict { path := r.cachePath } :=
    ⟨Cache.soundUpTo_empty rfl, fun _ mem => absurd mem List.not_mem_nil⟩
  unfold loaded Cache.load
  cases content : run.host.files.readText run.host.directory r.cachePath with
  | error fault => exact empty
  | ok text =>
      change Usable sites verdict
        { path := r.cachePath, entries := (Cache.entriesOfText? text).getD [] }
      cases read : Cache.entriesOfText? text with
      | none => exact empty
      | some es =>
          rcases found text content with unreadable | ⟨c, usable, rfl⟩
          · rw [read] at unreadable
            cases unreadable
          · obtain ⟨faithful, unambiguous⟩ :=
              usable.faithful.load usable.unambiguous read r.cachePath
            exact ⟨faithful, unambiguous⟩

end Run

/-! ### Tools that answer by their arguments -/

/-- Tools that end well, with a text that depends on the arguments of the call. -/
def answering (answer : List String → String) (call : Invocation) : Option Outcome :=
  some ⟨.ofText (answer call.arguments), [], some 0⟩

/-- A tool that answers has ended well, with the answer to its arguments. -/
theorem result_start_answering {host : Host} {answer : List String → String}
    (tooled : host.tools = answering answer) (program : String) (arguments : List String)
    (input : Octets) :
    (Session.start program arguments "/" input).result host =
      .ok (some ⟨.ofText (answer arguments), [], some 0⟩) := by
  unfold Session.start Session.result
  simp only [Files.Tree.find_root, tooled, answering]

theorem result_call_answering {host : Host} {answer : List String → String}
    (tooled : host.tools = answering answer) (arguments : List String) :
    (Vcs.Svn.call "/" arguments).result host = .ok ⟨answer arguments, ""⟩ := by
  unfold Vcs.Svn.call Vcs.call Vcs.start
  simp only [Session.result_bind, result_start_answering tooled, Except.bind,
    Session.result_pure, Vcs.Reply.ofOutcome, Octets.lossyText_ofText]
  rfl

/-! ### Working copies of one file -/

/-- What the tools write where there is one file: its diff and its base revision, and what the
linter says of every content. -/
structure Tooling where
  diff : String
  base : String
  said : String

namespace Tooling

/-- The working copy begins at the root, and the file was changed in revision 4. -/
def answer (t : Tooling) : (arguments : List String) → String
  | "info" :: _ :: "wc-root" :: _ => "/"
  | "info" :: _ => "4"
  | "diff" :: _ => t.diff
  | "cat" :: _ => t.base
  | _ => t.said

/-- A host with these tools, and its working copy. -/
structure Site (t : Tooling) (host : Host) (r : Repository) : Prop where
  tooled : host.tools = answering t.answer
  root : r.root = "/"
  vcs : r.vcs = .svn

def verdict (t : Tooling) (command path _content : String) : Except Error Messages :=
  (Linter.ofCommand command).bind fun linter =>
    linter.messages path ⟨.ofText (t.answer (linter.argumentsFor path)), [], some 0⟩

variable {t : Tooling} {host : Host} {r : Repository}

/-- Whatever the content, the linter says the same about it. -/
theorem verdict_eq {linter : Linter} {path : String} {ms : Messages}
    (ofCommand : Linter.ofCommand linter.command = .ok linter)
    (answers : t.answer (linter.argumentsFor path) = t.said)
    (read : Messages.ofOutput t.said = .ok ms) (content : String) :
    t.verdict linter.command path content = .ok (ms.relabel path) := by
  unfold verdict
  simp only [ofCommand, Except.bind, answers, Linter.messages, Octets.lossyText_ofText, read]
  rfl

/-! What the tools answer. -/

section

variable (site : t.Site host r) (base path : String)
include site

/-- The file was changed in revision 4. -/
theorem idAt_eq : r.idAt host base path = .ok "r4" := by
  obtain ⟨root, settings, settingsPath, vcs⟩ := r
  obtain ⟨tooled, rfl, rfl⟩ := site
  have word : Text.trimmed "4" = "4" := by decide
  unfold Repository.idAt Vcs.fileId Vcs.Svn.fileId
  simp only [Session.result_bind, result_call_answering tooled]
  show Except.ok ("r" ++ Text.trimmed "4") = _
  rw [word]
  rfl

/-- The base revision has the content that the tools tell. -/
theorem contentAt_eq : r.contentAt host base path = .ok (some t.base) := by
  obtain ⟨root, settings, settingsPath, vcs⟩ := r
  obtain ⟨tooled, rfl, rfl⟩ := site
  unfold Repository.contentAt Vcs.baseContent Vcs.Svn.baseContent
  simp only [Session.result_bind, Session.result_attempt, result_call_answering tooled]
  rfl

theorem fileDiff_eq (contextLines : Nat) :
    (r.vcs.fileDiff r.root base path contextLines).result host = .ok t.diff := by
  obtain ⟨root, settings, settingsPath, vcs⟩ := r
  obtain ⟨tooled, rfl, rfl⟩ := site
  show (Vcs.Svn.fileDiff "/" base path contextLines).result host = _
  rw [Vcs.Svn.fileDiff, Session.result_bind, result_call_answering tooled]
  rfl

end

/-- Tools that answer by their arguments alone are steady. -/
theorem steady (t : Tooling) : Steady t.Site t.verdict where
  content := by
    intro host host' r r' base base' path id c c' site site' _ _ one other
    rw [contentAt_eq site] at one
    rw [contentAt_eq site'] at other
    cases one
    cases other
    rfl
  mark := by
    intro host r base path id site hasId
    rw [idAt_eq site] at hasId
    cases hasId
    decide
  linter := by
    intro host r linter path content site ofCommand
    unfold verdict Linter.lint
    simp only [ofCommand, site.root, Session.result_bind, result_start_answering site.tooled]
    rfl

/-! The repository at the root, without settings and with settings. -/

section

open Files.Tree (Spells IsName)

variable {files : Files.Tree} (path : String) {name : String} (spells : Spells path [name])
  (isName : IsName name) (short : name.utf8ByteSize ≤ Files.Tree.nameMax)
include spells isName short

/-- The path of a file in the root finds it. -/
theorem find_file {content : Octets} (there : files.entry? [name] = some (.file content)) :
    files.find [] path = .ok ([name], .file content) := by
  have walks : files.Walks true Files.Tree.linkMax false (Files.Tree.startOf [] path) [name]
      (.taken [name] (.file content)) := by
    rw [Files.Tree.startOf_root]
    exact .file isName short there
  rw [Files.Tree.find, spells.resolve walks]
  rfl

theorem find_nothing (nothing : files.entry? [name] = none) :
    files.find [] path = .error .notFound := by
  have walks : files.Walks true Files.Tree.linkMax false (Files.Tree.startOf [] path) [name]
      (.free [name] false) := by
    rw [Files.Tree.startOf_root]
    exact .free isName short nothing
  rw [Files.Tree.find, spells.resolve walks]
  rfl

end

section

variable (tooled : host.tools = answering t.answer) (directory : host.directory = [])
include tooled directory

/-- The working copy is the one that Subversion tells, with the settings of the nearest file. -/
theorem repository_eq {path : Option String} {settings : Settings}
    (nearest : Repository.nearestSettings? host.files [] = path)
    (isRead : path.elim (.ok {}) (Repository.readSettings host.files []) = .ok settings) :
    (Repository.find none (some .svn)).result host = .ok ⟨"/", settings, path, .svn⟩ := by
  have root : Files.Location.text [] = "/" := by decide
  have word : Text.trimmed "/" = "/" := by decide
  unfold Repository.find Vcs.root Vcs.Svn.root
  simp only [Session.result_bind, Session.result_look, directory, nearest, Except.bind, root,
    Session.result_attempt, result_call_answering tooled, answer, Option.getD_some,
    Session.result_pure, Vcs.Reply.word, word]
  cases path with
  | none =>
      cases isRead
      rfl
  | some path =>
      have isRead : Repository.readSettings host.files [] path = .ok settings := isRead
      simp only [isRead]

/-- Without a file of settings they are the default ones. -/
theorem repository_unset (nothing : host.files.entry? [".lintdelta.yaml"] = none) :
    (Repository.find none (some .svn)).result host = .ok ⟨"/", {}, none, .svn⟩ := by
  have settings : (Files.Location.upward []).map Repository.settingsIn = ["/.lintdelta.yaml"] :=
    rfl
  have absent := find_nothing "/.lintdelta.yaml" (by decide +kernel) (by decide) (by decide)
    nothing
  refine repository_eq tooled directory ?_ rfl
  simp only [Repository.nearestSettings?, settings, List.find?_cons, List.find?_nil,
    Files.Tree.isFile, absent]

theorem repository_set {text : String} {settings : Settings}
    (there : host.files.entry? [".lintdelta.yaml"] = some (.file (.ofText text)))
    (isRead : Settings.ofYaml text = .ok settings) :
    (Repository.find none (some .svn)).result host =
      .ok ⟨"/", settings, some "/.lintdelta.yaml", .svn⟩ := by
  have paths : (Files.Location.upward []).map Repository.settingsIn = ["/.lintdelta.yaml"] :=
    rfl
  have found := find_file "/.lintdelta.yaml" (by decide +kernel) (by decide) (by decide) there
  refine repository_eq tooled directory ?_ ?_
  · simp only [Repository.nearestSettings?, paths, List.find?_cons, Files.Tree.isFile, found]
  · show Repository.readSettings host.files [] "/.lintdelta.yaml" = _
    simp only [Repository.readSettings, Files.Tree.readText, Files.Tree.read, found, bind,
      Except.bind, pure, Except.pure, Octets.text?_ofText, Except.mapError, isRead]

end

/-! The check of the file. -/

section

theorem find_there {files : Files.Tree} {content : Octets}
    (there : files.entry? ["a.js"] = some (.file content)) :
    files.find [] "/a.js" = .ok (["a.js"], .file content) :=
  find_file "/a.js" (by decide +kernel) (by decide) (by decide) there

variable {linter : Linter} {base content : String} {cache : Option Cache} (root : r.root = "/")
  (directory : host.directory = [])
  (there : host.files.entry? ["a.js"] = some (.file (.ofText content)))
include root directory there

/-- The file that is named is the one that is checked. -/
theorem selectFiles_eq : (selectFiles r ["a.js"] base).result host = .ok ["a.js"] := by
  have path : Files.Path.join (Files.Location.text []) "a.js" = "/a.js" := by decide
  have relative : r.relative host.files host.directory "a.js" = .ok "a.js" := by
    unfold Repository.relative
    simp only [Files.Tree.canonical, directory, path, find_there there, root,
      Files.Tree.find_root]
    rfl
  show (distinct <$> ["a.js"].mapM (r.relative host.files host.directory)) = _
  simp only [List.mapM_cons, List.mapM_nil, relative]
  rfl

theorem newContent_eq :
    ((⟨r, linter, base, cache⟩ : Job).newContent "a.js").result host = .ok content := by
  have path : Files.Path.join "/" "a.js" = "/a.js" := by decide
  show (host.files.readText host.directory (Files.Path.join r.root "a.js")).mapError _ = _
  simp only [directory, root, path, Files.Tree.readText, Files.Tree.read,
    find_there there, bind, Except.bind, pure, Except.pure, Octets.text?_ofText]
  rfl

end

section

variable {linter : Linter} (base : String) {path : String} {ms : Messages} (site : t.Site host r)
  (ofCommand : Linter.ofCommand linter.command = .ok linter)
  (linted : ∀ content, t.verdict linter.command path content = .ok ms)
include site ofCommand linted

theorem lint_eq (cache : Option Cache) (content : String) :
    ((⟨r, linter, base, cache⟩ : Job).lint path content).result host = .ok ms :=
  (t.steady.linter path content site ofCommand).trans (linted content)

/-- Without a cache, the base revision is linted. -/
theorem oldMessages_uncached :
    ((⟨r, linter, base, none⟩ : Job).oldMessages path (some t.base)).result host =
      .ok (ms, none) := by
  unfold Job.oldMessages Job.baseMessages
  simp only [Session.result_bind, lint_eq _ site ofCommand linted, Except.bind, Session.result_pure]

/-- So it is with a cache that has nothing for it, and then the messages are for the cache. -/
theorem oldMessages_fresh {c : Cache}
    (unknown : c.get? (Cache.key path "r4") linter.command = none) :
    ((⟨r, linter, base, some c⟩ : Job).oldMessages path (some t.base)).result host =
      .ok (ms, some (Cache.key path "r4", ms)) := by
  unfold Job.oldMessages Job.baseMessages
  simp only [Session.result_bind, Job.result_key?, idAt_eq site, Except.toOption, Option.map_some,
    Except.bind, unknown, lint_eq _ site ofCommand linted, Session.result_pure]

omit ofCommand linted in
/-- The messages of a cache are taken as they are. -/
theorem oldMessages_cached {c : Cache} {known : Messages}
    (hit : c.get? (Cache.key path "r4") linter.command = some known) :
    ((⟨r, linter, base, some c⟩ : Job).oldMessages path (some t.base)).result host =
      .ok (known, none) := by
  unfold Job.oldMessages Job.baseMessages
  simp only [Session.result_bind, Job.result_key?, idAt_eq site, Except.toOption, Option.map_some,
    Except.bind, hit, Session.result_pure]

end

/-- The check of the file, if its diff has a body line and the linter has something to say. -/
theorem checkFile_eq {linter : Linter} {base content : String} {cache : Option Cache}
    {ms old kept : Messages} {fresh : Option (String × Messages)} {map : Diff.LineMap}
    (site : t.Site host r) (ofCommand : Linter.ofCommand linter.command = .ok linter)
    (linted : ∀ content, t.verdict linter.command "a.js" content = .ok ms)
    (directory : host.directory = [])
    (there : host.files.entry? ["a.js"] = some (.file (.ofText content)))
    (read : Diff.LineMap.ofText t.diff = .ok map) (changed : map.isEmpty = false)
    (something : ms.isEmpty = false)
    (before : ((⟨r, linter, base, cache⟩ : Job).oldMessages "a.js" (some t.base)).result host =
      .ok (old, fresh))
    (filtered : Messages.introducedBy map old ms = .ok kept) :
    ((⟨r, linter, base, cache⟩ : Job).checkFile "a.js").result host = .ok ⟨kept, fresh⟩ := by
  have hasOld : (r.vcs.baseContent r.root base "a.js").result host = .ok (some t.base) :=
    contentAt_eq site base "a.js"
  unfold Job.checkFile
  simp only [Session.result_bind, fileDiff_eq site, read, hasOld, Except.bind, Except.mapError,
    Session.result_ofExcept, changed, Bool.false_and]
  rw [if_neg Bool.false_ne_true]
  simp only [Session.result_bind, newContent_eq site.root directory there,
    lint_eq _ site ofCommand linted, Except.bind, something]
  rw [if_neg Bool.false_ne_true]
  simp only [Session.result_bind, before, Except.bind, Session.result_ofExcept, filtered,
    Session.result_pure]

end Tooling

/-! ### A file with a message on the line that was changed -/

namespace OneFile

/-- One line of the file was changed, and the linter complains about the first line of everything. -/
def tooling : Tooling :=
  ⟨"@@ -1 +1 @@\n-a\n+b\n", "a\n", "[\x7b\"line\":1,\"type\":\"ERROR\"\x7d]"⟩

def repository : Repository := ⟨"/", {}, none, .svn⟩

def linter : Linter where
  command := "eslint --format json --stdin --stdin-filename \x7bpath\x7d"
  program := "eslint"
  arguments := ["--format", "json", "--stdin", "--stdin-filename", "\x7bpath\x7d"]

def complaint : Message := ⟨some 1, some "a.js", .error, []⟩

/-- The first run finds the file only. -/
def first : Run where
  host := ⟨⟨[(["a.js"], .file (.ofText "b\n"))]⟩, [], answering tooling.answer, [],
    ⟨⟨2024, 5, 6⟩, 0, 0⟩⟩
  arguments := { paths := ["a.js"], vcs := some .svn }

def saved : Cache where
  path := "/.lintdelta/cache.json"
  entries := [("a.js@r4", ⟨linter.command, first.host.clock, [complaint]⟩)]
  isDirty := true

def job : Job := ⟨repository, linter, "BASE", some { path := "/.lintdelta/cache.json" }⟩

theorem ofCommand : Linter.ofCommand linter.command = .ok linter := rfl

theorem linted (content : String) :
    tooling.verdict linter.command "a.js" content = .ok [complaint] := by
  have answers : tooling.answer (linter.argumentsFor "a.js") = tooling.said := by decide
  have read : Messages.ofOutput tooling.said = .ok [⟨some 1, none, .error, []⟩] := rfl
  exact Tooling.verdict_eq ofCommand answers read content

theorem key_eq : Cache.key "a.js" "r4" = "a.js@r4" := by decide

section

variable {host : Host} (tooled : host.tools = answering tooling.answer)
include tooled

theorem site : tooling.Site host repository := ⟨tooled, rfl, rfl⟩

theorem lint_eq (content : String) : (job.lint "a.js" content).result host = .ok [complaint] :=
  Tooling.lint_eq "BASE" (site tooled) ofCommand linted _ content

/-- The complaint is on the changed line: it is reported, and handed back for the cache. -/
theorem checkFile_eq (directory : host.directory = [])
    (there : host.files.entry? ["a.js"] = some (.file (.ofText "b\n"))) :
    (job.checkFile "a.js").result host = .ok ⟨[complaint], some ("a.js@r4", [complaint])⟩ := by
  have map : Diff.LineMap.ofText tooling.diff = .ok { records := [.removed 1, .added 1] } := rfl
  have unknown : Cache.get? { path := "/.lintdelta/cache.json" } (Cache.key "a.js" "r4")
      linter.command = none := rfl
  have before := Tooling.oldMessages_fresh "BASE" (site tooled) ofCommand linted unknown
  rw [key_eq] at before
  exact Tooling.checkFile_eq (site tooled) ofCommand linted directory there map rfl rfl before rfl

end

def firstOn (files : Files.Tree) : Run := { first with host := { first.host with files } }

/-- The first run goes to save the complaint, whatever else is in the files. -/
theorem firstOn_saves {files : Files.Tree} (plain : files.entry? [".lintdelta.yaml"] = none)
    (there : files.entry? ["a.js"] = some (.file (.ofText "b\n")))
    (loaded : Cache.load files [] "/.lintdelta/cache.json" = { path := "/.lintdelta/cache.json" }) :
    (firstOn files).Saves saved := by
  have found : (firstOn files).repository = .ok repository :=
    Tooling.repository_unset rfl rfl plain
  have cache : (firstOn files).loaded repository = { path := "/.lintdelta/cache.json" } := loaded
  have uses : (if (firstOn files).useCache repository then some ((firstOn files).loaded repository)
      else none) = some { path := "/.lintdelta/cache.json" } := by
    rw [cache]
    rfl
  exact ⟨_, Run.findings_of_file found ofCommand (Tooling.selectFiles_eq rfl rfl there) uses
    (checkFile_eq rfl rfl there), rfl⟩

end OneFile

end PatchLint.Check
