import PatchLint.Arguments
import PatchLint.Cache.File
import PatchLint.Linter
import PatchLint.Repository

/-!
Checking the changed files of a working copy.

For each file the working copy is linted, and if there is anything to report the base
revision too; what the change introduced is kept. Messages about a base revision may
come from the cache, which is only looked at while files are checked: what was linted
anew is handed back, and goes into the cache after all files went well.
-/

namespace PatchLint

open PatchLint.Diff (LineMap)
open PatchLint.Lint (Messages)

namespace Check

structure Job where
  repository : Repository
  linter : Linter
  base : String
  /-- The cache, if one is used. -/
  cache : Option Cache

structure FileResult where
  messages : Messages := []
  /-- The messages about the base revision, with their key, if they were made anew for the
  cache. -/
  fresh : Option (String × Messages) := none
  deriving Repr, Inhabited

namespace Job

def lint (job : Job) (path content : String) : Session Messages :=
  job.linter.lint job.repository.root path content

/-- The key of a file at the base revision; none if nothing can be kept for it. -/
def key? (job : Job) (path : String) : Session (Option String) := do
  match ← Session.attempt (job.repository.vcs.fileId job.repository.root job.base path) with
  | .ok id => return some (Cache.key path id)
  | .error _ => return none

/-- The messages about the base revision of a file, and what is new for the cache. -/
def baseMessages (job : Job) (path content : String) :
    Session (Messages × Option (String × Messages)) := do
  match job.cache with
  | none => return (← job.lint path content, none)
  | some cache =>
    match ← job.key? path with
    | none => return (← job.lint path content, none)
    | some key =>
      match cache.get? key job.linter.command with
      | some messages => return (messages, none)
      | none =>
        let messages ← job.lint path content
        return (messages, some (key, messages))

/-- The messages about the base revision of a file, which may not be there. -/
def oldMessages (job : Job) (path : String) :
    Option String → Session (Messages × Option (String × Messages))
  | none => return ([], none)
  | some content => job.baseMessages path content

def newContent (job : Job) (path : String) : Session String :=
  Session.look fun host =>
    (host.files.readText host.directory (Files.Path.join job.repository.root path)).mapError
      (.unreadable path)

/-- Checks one file. A file without a change is not linted, and the base revision is not
linted when there is nothing to report. -/
def checkFile (job : Job) (path : String) : Session FileResult := do
  let r := job.repository
  let diff ← r.vcs.fileDiff r.root job.base path r.settings.contextLines
  let map ← Session.ofExcept ((LineMap.ofText diff).mapError .diff)
  let old ← r.vcs.baseContent r.root job.base path
  -- A new file without lines has no body line in its diff either, but is linted.
  if map.isEmpty && old.isSome then return {}
  let content ← job.newContent path
  let new ← job.lint path content
  if new.isEmpty then return {}
  let (oldMessages, fresh) ← job.oldMessages path old
  let messages ← Session.ofExcept ((Messages.introducedBy map oldMessages new).mapError .diff)
  return { messages, fresh }

end Job

/-! ### Selection -/

/-- The elements of a list, each at its first place only. -/
def distinct (paths : List String) : List String :=
  paths.foldl (fun seen p => if seen.contains p then seen else seen ++ [p]) []

def namedFiles (r : Repository) (paths : List String) : Session (List String) :=
  Session.look fun host => do
    return distinct (← paths.mapM (r.relative host.files host.directory))

def changedFiles (r : Repository) (base : String) : Session (List String) := do
  let filter ← Session.ofExcept (r.settings.fileFilter.mapError .settings)
  let changed ← r.vcs.changedFiles r.root base
  return changed.filter filter.selects

/-- The files to check: those that are named, or else those that changed. -/
def selectFiles (r : Repository) (paths : List String) (base : String) :
    Session (List String) :=
  if paths.isEmpty then changedFiles r base else namedFiles r paths

/-! ### The whole check -/

structure Findings where
  messages : Messages
  base : String
  format : Report.Format
  failOnWarnings : Bool
  /-- The cache with what was made anew, if it is to be saved. -/
  cache : Option Cache

namespace Findings

def report (f : Findings) : String := Report.render f.format f.messages

/-- The failure of a check: there are new errors, or new warnings where they count. -/
def failure (f : Findings) : Option Error :=
  if 0 < f.messages.errorCount || f.failOnWarnings && 0 < f.messages.warningCount then
    some (.introduced (Report.summary f.messages) f.base)
  else none

end Findings

/-- Puts into the cache what was made anew. -/
def collect (command : String) (clock : Time.Instant) (cache : Cache)
    (results : List FileResult) : Cache :=
  results.foldl (fun cache r =>
    match r.fresh with
    | some (key, messages) => cache.insert key command messages clock
    | none => cache) cache

def run (a : CheckArguments) : Session Findings := do
  let r ← Repository.find a.config a.vcs
  let base := a.base.getD r.vcs.defaultBase
  let useCache := r.settings.cacheEnabled && !a.noCache
  let linter ← Session.ofExcept (Linter.ofCommand r.settings.linterCommand)
  let files ← selectFiles r a.paths base
  let cache ← Session.look fun host => .ok <|
    if useCache then some (Cache.load host.files host.directory r.cachePath) else none
  let results ← Session.forAll (Job.checkFile ⟨r, linter, base, cache⟩) files
  let clock ← Session.look fun host => .ok host.clock
  return {
    messages := results.flatMap (·.messages)
    base
    format := a.format.getD r.settings.format
    failOnWarnings := a.failOnWarnings || r.settings.failOnWarnings
    -- A cache in which nothing is new is not saved again.
    cache := (cache.map fun c => collect linter.command clock c results).filter (·.isDirty) }

end Check

end PatchLint
