import PatchLint.Diff.Record
import PatchLint.Text.Basic

/-!
The lines of a diff that are not body lines.

`Hunk.ofLine?` reads the header of a hunk, `@@ -old,count +new,count @@`.
`isFileHeader` and `isPreamble` tell the lines around the hunks apart, and
`targetPath?` reads the new file's name from a `+++` line.
-/

namespace PatchLint.Diff

structure Hunk where
  oldStart : Nat
  oldCount : Nat
  newStart : Nat
  newCount : Nat
  deriving DecidableEq, Repr, Inhabited

/-- A decimal number up to `lineMax` at the start of a text, and what follows it. -/
def number? (s : List Char) : Option (Nat × List Char) :=
  match s.takeWhile Char.isDigit with
  | [] => none
  | digits =>
    let n := Text.digitsValue digits
    if n ≤ lineMax then some (n, s.dropWhile Char.isDigit) else none

/-- A comma and a number; without a comma the count is one. -/
def count? : List Char → Option (Nat × List Char)
  | ',' :: rest => number? rest
  | s => some (1, s)

/-- What follows `start` in a text that begins with it. -/
def after? (start s : List Char) : Option (List Char) :=
  if start.isPrefixOf s then some (s.drop start.length) else none

namespace Hunk

/-- The hunk that a header announces. Whatever follows the second `@@` is a heading. -/
def ofLine? (line : List Char) : Option Hunk := do
  let s ← after? ['@', '@', ' ', '-'] line
  let (oldStart, s) ← number? s
  let (oldCount, s) ← count? s
  let s ← after? [' ', '+'] s
  let (newStart, s) ← number? s
  let (newCount, s) ← count? s
  let _ ← after? [' ', '@', '@'] s
  return ⟨oldStart, oldCount, newStart, newCount⟩

end Hunk

/-- The line announces a hunk, well or ill. -/
def isHunkHeader (line : List Char) : Bool :=
  ['@', '@'].isPrefixOf line

def isRemark (line : List Char) : Bool :=
  ['\\'].isPrefixOf line

/-- How the lines begin that open the part of a file. -/
def fileHeaders : List String := ["+++ ", "diff ", "Index: "]

/-- How the other lines begin that stand in front of the hunks. -/
def preambles : List String :=
  ["--- ", "====", "index ", "new file mode", "deleted file mode", "old mode", "new mode",
    "similarity index", "rename from", "rename to", "Binary files"]

def beginsWithAny (starts : List String) (line : List Char) : Bool :=
  starts.any fun start => start.toList.isPrefixOf line

/-- The line opens the part of a file. -/
def isFileHeader (line : List Char) : Bool := beginsWithAny fileHeaders line

/-- The line belongs in front of the hunks and carries no line number. -/
def isPreamble (line : List Char) : Bool := beginsWithAny preambles line

def target? (line : List Char) : Option (List Char) :=
  after? ['+', '+', '+', ' '] line

/-- The name in the value of a file header: all before a tab, without blanks around. -/
def headerName (value : List Char) : List Char :=
  Text.trim (value.takeWhile (· ≠ '\t'))

def noFile : List Char := "/dev/null".toList

def namesNoFile (value : List Char) : Bool := headerName value == noFile

/-- The path that the value of a `+++` header names: without the leading `b/` and with
forward slashes. -/
def targetPath? (value : List Char) : Option (List Char) :=
  let name := headerName value
  if name.isEmpty ∨ namesNoFile name then none
  else some (Text.slashed ((after? ['b', '/'] name).getD name))

end PatchLint.Diff
