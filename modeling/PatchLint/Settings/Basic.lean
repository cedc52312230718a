import PatchLint.FileFilter
import PatchLint.Report
import PatchLint.Words

/-!
The settings of a repository, and the version control systems that it can be under.

`Settings.check` says whether settings make sense: the linter's command has a word, the
included globs have a pattern, all globs are patterns, and a cache that is in use has a
path. The first of these that fails is the one that is reported.
-/

namespace PatchLint

/-! ### Version control systems -/

inductive Vcs where
  | git
  | svn
  deriving DecidableEq, Repr, Inhabited

namespace Vcs

def all : List Vcs := [.git, .svn]

/-- The name of a system, which is also its program. -/
def name : Vcs → String
  | .git => "git"
  | .svn => "svn"

def ofName? (s : String) : Option Vcs :=
  all.find? fun v => v.name == s

/-- The revision that a change is measured from if none is given. -/
def defaultBase : Vcs → String
  | .git => "HEAD"
  | .svn => "BASE"

end Vcs

/-! ### Settings -/

structure Settings where
  vcs : Vcs := .git
  /-- How many unchanged lines a diff shows around a change. -/
  contextLines : Nat := 3
  includeGlobs : List String :=
    ["**/*.js", "**/*.jsx", "**/*.mjs", "**/*.cjs", "**/*.ts", "**/*.tsx"]
  excludeGlobs : List String := ["node_modules/**", "**/*.min.js"]
  /-- How the linter is called; `\x7bpath\x7d` stands for the file. -/
  linterCommand : String := "eslint --format json --stdin --stdin-filename \x7bpath\x7d"
  /-- New warnings fail a check as new errors do. -/
  failOnWarnings : Bool := false
  /-- Messages about old revisions are kept. -/
  cacheEnabled : Bool := true
  /-- Where they are kept, in the repository. -/
  cachePath : String := ".lintdelta/cache.json"
  format : Report.Format := .text
  deriving DecidableEq, Repr, Inhabited

namespace Settings

def fileName : String := ".lintdelta.yaml"

inductive Fault where
  | notYaml
  | noCommand
  | unclosedQuote
  | noPattern
  | badGlob (cause : FileFilter.Fault)
  | noCachePath
  deriving DecidableEq, Repr, Inhabited

def fileFilter (s : Settings) : Except Fault FileFilter :=
  (FileFilter.ofGlobs s.includeGlobs s.excludeGlobs).mapError .badGlob

def check (s : Settings) : Except Fault Unit := do
  match Words.split? s.linterCommand with
  | none => throw .unclosedQuote
  | some [] => throw .noCommand
  | some (_ :: _) => pure ()
  if s.includeGlobs.all Text.allBlank then throw .noPattern
  let _ ← s.fileFilter
  if s.cacheEnabled && Text.allBlank s.cachePath then throw .noCachePath

end Settings

end PatchLint
