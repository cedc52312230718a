import PatchLint.Diff.Header
import PatchLint.Text.Basic

/-!
The line map of a diff of one file.

A diff is read line by line by `Scan.step`. A hunk is open while its declared counts
are not used up, and then every line is a body line, whatever it looks like. Between
hunks file headers and preamble lines are told apart; any other line there goes on
counting. `LineMap.oldLine` answers which line of the old file a line of the new file
was: first by `recorded?`, and between the hunks by `extrapolate`.
-/

namespace PatchLint.Diff

/-- Where the reader stands inside a hunk. -/
structure Cursor where
  oldLine : Nat := 0
  newLine : Nat := 0
  oldLeft : Nat := 0
  newLeft : Nat := 0
  deriving DecidableEq, Repr, Inhabited

namespace Cursor

def ofHunk (h : Hunk) : Cursor := ⟨h.oldStart, h.newStart, h.oldCount, h.newCount⟩

/-- The declared counts are not used up. -/
def isOpen (c : Cursor) : Bool := 0 < c.oldLeft || 0 < c.newLeft

def record (c : Cursor) : List Char → Record
  | '-' :: _ => .removed c.oldLine
  | '+' :: _ => .added c.newLine
  | _ => .kept c.oldLine c.newLine

def succ (line : Nat) : Except Fault Nat :=
  if line < lineMax then .ok (line + 1) else .error (.lineOverflow line)

/-- The cursor after a record, the old file first. -/
def advance (c : Cursor) (r : Record) : Except Fault Cursor := do
  let c ← if r.old?.isSome then
      pure { c with oldLine := ← succ c.oldLine, oldLeft := c.oldLeft - 1 }
    else pure c
  if r.new?.isSome then
    return { c with newLine := ← succ c.newLine, newLeft := c.newLeft - 1 }
  else return c

end Cursor

/-- What a diff says about the lines of one file. -/
structure LineMap where
  /-- The body lines of all hunks, in their order. -/
  records : List Record := []
  /-- The new file's path, if a header names it. -/
  target : Option String := none
  /-- A header says that the new file does not exist. -/
  deleted : Bool := false
  deriving DecidableEq, Repr, Inhabited

structure Scan where
  map : LineMap := {}
  cursor : Cursor := {}
  /-- A hunk header was read. -/
  inHunks : Bool := false
  deriving DecidableEq, Repr, Inhabited

namespace Scan

def body (s : Scan) (line : List Char) : Except Fault Scan := do
  let record := s.cursor.record line
  let cursor ← s.cursor.advance record
  return { s with cursor, map := { s.map with records := s.map.records ++ [record] } }

def hunk (s : Scan) (line : List Char) : Except Fault Scan :=
  match Hunk.ofLine? line with
  | none => .error (.badHeader (String.ofList line))
  | some h => .ok { s with cursor := .ofHunk h, inHunks := true }

def fileHeader (s : Scan) (line : List Char) : Except Fault Scan :=
  if s.inHunks then .error (.secondFile (String.ofList line))
  else
    match target? line with
    | none => .ok s
    | some value =>
      .ok { s with map := { s.map with
        target := (targetPath? value).map String.ofList
        deleted := namesNoFile value } }

def step (s : Scan) (line : List Char) : Except Fault Scan :=
  if isRemark line then .ok s
  else if isHunkHeader line then s.hunk line
  -- While a declared count is left every line is a body line, whatever it looks like.
  else if s.cursor.isOpen then s.body line
  else if isFileHeader line then s.fileHeader line
  else if isPreamble line || !s.inHunks then .ok s
  -- More lines than declared: they count on.
  else s.body line

end Scan

/-! ### Lookup -/

/-- What the record of a new line says: none if there is no record of it, `some none`
if the line was added. -/
def recorded? (records : List Record) (line : Nat) : Option (Option Nat) :=
  (records.find? fun r => r.new? == some line).map Record.old?

/-- The shift, new less old, that holds for `line`: records are applied up to the first
one past it. -/
def shift (line : Nat) : List Record → (sofar : Int) → Int
  | [], sofar => sofar
  | .removed old :: rest, sofar =>
    if (old : Int) + sofar > line then sofar else shift line rest (sofar - 1)
  | .kept old new :: rest, sofar =>
    if new > line then sofar else shift line rest ((new : Int) - old)
  | .added new :: rest, sofar =>
    if new > line then sofar else shift line rest (sofar + 1)

/-- The old line that `line` was by the shift before it. -/
def extrapolate (records : List Record) (line : Nat) : Except Fault Nat :=
  let old := (line : Int) - shift line records 0
  if 0 < old ∧ old ≤ lineMax then .ok old.toNat else .error (.unmapped line)

namespace LineMap

def ofLines (lines : List (List Char)) : Except Fault LineMap := do
  let s ← lines.foldlM Scan.step {}
  return s.map

def ofText (diff : String) : Except Fault LineMap :=
  ofLines (Text.splitLines diff.toList)

/-- The diff has no body line. -/
def isEmpty (m : LineMap) : Bool := m.records.isEmpty

/-- The old line that a line of the new file was, or none if it was added. -/
def oldLine (m : LineMap) (line : Nat) : Except Fault (Option Nat) :=
  if line = 0 ∨ m.deleted then .error (.unmapped line)
  else
    match recorded? m.records line with
    | some old => .ok old
    | none => (extrapolate m.records line).map some

end LineMap

end PatchLint.Diff
