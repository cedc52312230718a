import PatchLint.Text.Basic
import PatchLint.Vcs.Call

/-!
Working copies under git.
-/

namespace PatchLint.Vcs.Git

def call (directory : String) (arguments : List String) : Session Reply :=
  Vcs.call "git" directory arguments

def object (base path : String) : String := base ++ ":" ++ path

def root (directory : String) : Session String := do
  return (← call directory ["rev-parse", "--show-toplevel"]).word

/-- The order of paths by their octets. -/
def notAfter (a b : String) : Bool := !decide (b < a)

/-- The list with one element of each run of equal ones. -/
def withoutRepeats : List String → List String
  | [] => []
  | [a] => [a]
  | a :: b :: rest =>
    if a = b then withoutRepeats (b :: rest) else a :: withoutRepeats (b :: rest)

/-- The paths of two listings, in order and each once. -/
def listing (tracked untracked : Reply) : List String :=
  let paths := (tracked.lines ++ untracked.lines).map fun line =>
    String.ofList (Text.slashed line.toList)
  withoutRepeats (paths.mergeSort notAfter)

/-- The files that differ from the base revision, and those that are not tracked. -/
def changedFiles (directory base : String) : Session (List String) := do
  let tracked ← call directory ["diff", "--name-only", "--diff-filter=ACMR", base, "--"]
  let untracked ← call directory ["ls-files", "--others", "--exclude-standard"]
  return listing tracked untracked

/-- The diff of one file from the base revision, in the plain form whatever the settings
of the user are. -/
def fileDiff (directory base path : String) (contextLines : Nat) : Session String := do
  let reply ← call directory
    ["diff", "--no-color", "--no-ext-diff", "--src-prefix=a/", "--dst-prefix=b/",
      "-U" ++ Text.decimal contextLines, base, "--", path]
  return reply.text

/-- The content of a file in the base revision, if it is there. -/
def baseContent (directory base path : String) : Session (Option String) := do
  let found ← Vcs.start "git" directory ["cat-file", "-e", object base path]
  -- The first call tells a file that is not there from a call that fails.
  if found.isSuccess then return some (← call directory ["show", object base path]).text
  else return none

def fileId (directory base path : String) : Session String := do
  return (← call directory ["rev-parse", object base path]).word

end PatchLint.Vcs.Git
