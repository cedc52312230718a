/-!
The lines of a diff and what can be wrong with one.

Lines are numbered from 1 in each file. A kept line stands in both files, an added
line in the new file only, and a removed line in the old file only.
-/

namespace PatchLint.Diff

def lineMax : Nat := 0xFFFFFFFF

/-- A body line of a hunk, by its line numbers. -/
inductive Record where
  | kept (old new : Nat)
  | added (new : Nat)
  | removed (old : Nat)
  deriving DecidableEq, Repr, Inhabited

namespace Record

/-- The line number in the old file, which an added line does not have. -/
def old? : Record → Option Nat
  | .kept old _ => some old
  | .added _ => none
  | .removed old => some old

/-- The line number in the new file, which a removed line does not have. -/
def new? : Record → Option Nat
  | .kept _ new => some new
  | .added new => some new
  | .removed _ => none

end Record

/-- Why a diff cannot be read, or a line not be mapped through it. -/
inductive Fault where
  /-- A line that starts with `@@` and is no hunk header. -/
  | badHeader (line : String)
  /-- A header of a file after a hunk. -/
  | secondFile (line : String)
  /-- A line after the last line number. -/
  | lineOverflow (line : Nat)
  /-- A line of the new file that the diff says nothing about. -/
  | unmapped (line : Nat)
  deriving DecidableEq, Repr, Inhabited

end PatchLint.Diff
