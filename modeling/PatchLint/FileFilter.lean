import PatchLint.Glob.Match
import PatchLint.Text.Basic

/-!
Which changed files are linted: those that some included pattern matches and no
excluded one does. Patterns and paths may use backslashes as slashes, and patterns
that are blank count for nothing.
-/

namespace PatchLint

structure FileFilter where
  included : List Glob.Pattern
  excluded : List Glob.Pattern
  deriving Repr, Inhabited

namespace FileFilter

/-- A glob that is no pattern: the field it stands in, as it is written, without blanks
and backslashes, and why. -/
structure Fault where
  field : String
  glob : String
  normal : String
  cause : Glob.Fault
  deriving DecidableEq, Repr, Inhabited

/-- The glob without blanks around it, with forward slashes. -/
def normalize (glob : String) : List Char :=
  Text.slashed (Text.trim glob.toList)

def patterns (field : String) : List String → Except Fault (List Glob.Pattern)
  | [] => .ok []
  | glob :: globs => do
    let normal := normalize glob
    if normal.isEmpty then patterns field globs
    else
      let pattern ← (Glob.Pattern.ofText normal).mapError
        fun cause => ⟨field, glob, String.ofList normal, cause⟩
      return pattern :: (← patterns field globs)

def ofGlobs (included excluded : List String) : Except Fault FileFilter := do
  let included ← patterns "include_globs" included
  let excluded ← patterns "exclude_globs" excluded
  return ⟨included, excluded⟩

def selects (f : FileFilter) (path : String) : Bool :=
  let octets := (String.ofList (Text.slashed path.toList)).toUTF8.data.toList
  f.included.any (·.matchesPath octets) && !f.excluded.any (·.matchesPath octets)

end FileFilter

end PatchLint
