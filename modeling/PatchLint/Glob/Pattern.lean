/-!
Glob patterns and how they are written.

A star and a question mark also stand for a slash. Two stars that make up a whole
component stand for any number of directories: in front (`**/x`), inside (`a/**/b`) or
at the end (`x/**`); elsewhere they are just stars. Brackets hold a class of
characters, braces alternatives, which may nest. `Pattern.ofText` reads a pattern.
-/

namespace PatchLint.Glob

inductive Part where
  | literal (c : Char)
  /-- One octet. -/
  | any
  /-- Any octets. -/
  | many
  /-- Directories in front of all else, and their slash. -/
  | leadingDirs
  /-- A slash, or directories between two slashes. -/
  | innerDirs
  /-- A slash and all that follows. -/
  | trailingDirs
  /-- One octet of the characters in the ranges, or one that is in none of them. -/
  | oneOf (negated : Bool) (ranges : List (Char × Char))
  /-- One of several sequences. -/
  | choice (branches : List (List Part))
  deriving Repr, Inhabited

abbrev Pattern := List Part

inductive Fault where
  | unclosedClass
  | badRange (first last : Char)
  | unclosedChoice
  | unopenedChoice
  deriving DecidableEq, Repr, Inhabited

def Fault.message : Fault → String
  | .unclosedClass => "unclosed character class; missing ']'"
  | .badRange first last =>
    String.ofList ("invalid range; '".toList ++ first :: "' > '".toList ++ [last, '\''])
  | .unclosedChoice =>
    "unclosed alternate group; missing '\x7d' (maybe escape '\x7b' with '[\x7b]'?)"
  | .unopenedChoice =>
    "unopened alternate group; missing '\x7b' (maybe escape '\x7d' with '[\x7d]'?)"

/-! ### Classes -/

/-- The ranges of a class that were read, the last one first; after a dash that may go
on with the last range, `open?` is set. -/
structure Class where
  ranges : List (Char × Char) := []
  isOpen : Bool := false

namespace Class

def push (k : Class) (c : Char) : Class := ⟨(c, c) :: k.ranges, false⟩

/-- Ends the last range at `c`. -/
def extend (k : Class) (c : Char) : Except Fault Class :=
  match k.ranges with
  | [] => .ok (k.push c)
  | (first, _) :: rest =>
    if c < first then .error (.badRange first c) else .ok ⟨(first, c) :: rest, false⟩

def take (k : Class) (isFirst : Bool) (c : Char) : Except Fault Class :=
  if k.isOpen then k.extend c
  else if c = '-' ∧ !isFirst then .ok { k with isOpen := true }
  else .ok (k.push c)

/-- The ranges in order; a dash at the end stands for itself. -/
def finish (k : Class) : List (Char × Char) :=
  (if k.isOpen then k.push '-' else k).ranges.reverse

end Class

/-- Reads the members of a class to its bracket, which as the first member stands for
itself. Gives the ranges and the text after the bracket. -/
def readMembers (k : Class) (isFirst : Bool) :
    List Char → Except Fault (List (Char × Char) × List Char)
  | [] => .error .unclosedClass
  | c :: rest =>
    if c = ']' ∧ !isFirst then .ok (k.finish, rest)
    else do
      let k ← k.take isFirst c
      readMembers k false rest

def readClass (s : List Char) : Except Fault (Part × List Char) := do
  let (negated, s) :=
    match s with
    | '!' :: rest => (true, rest)
    | '^' :: rest => (true, rest)
    | _ => (false, s)
  let (ranges, rest) ← readMembers {} true s
  return (.oneOf negated ranges, rest)

/-! ### Patterns -/

/-- An open brace: the branches that are finished and the parts in front of it, all
with the last one first. -/
structure Frame where
  branches : List Pattern
  before : Pattern

/-- What was read of a pattern: the parts of the innermost branch, the last one first,
and the open braces. -/
structure Reading where
  parts : Pattern := []
  frames : List Frame := []

namespace Reading

def push (r : Reading) (p : Part) : Reading := { r with parts := p :: r.parts }

/-- Two stars that are no component of their own. -/
def pushStars (r : Reading) : Reading := (r.push .many).push .many

def openChoice (r : Reading) : Reading :=
  { parts := [], frames := ⟨[], r.parts⟩ :: r.frames }

/-- A comma: the next branch inside braces, itself outside. -/
def comma (r : Reading) : Reading :=
  match r.frames with
  | [] => r.push (.literal ',')
  | f :: fs => { parts := [], frames := { f with branches := r.parts.reverse :: f.branches } :: fs }

def closeChoice (r : Reading) : Except Fault Reading :=
  match r.frames with
  | [] => .error .unopenedChoice
  | f :: fs =>
    .ok { parts := .choice (r.parts.reverse :: f.branches).reverse :: f.before, frames := fs }

/-- Directories after a slash, which they take in; `isLast` if nothing follows. -/
def pushDirs (r : Reading) (isLast : Bool) : Reading :=
  match r.parts with
  | .leadingDirs :: _ => r
  | .trailingDirs :: _ => r
  | parts => { r with parts := (if isLast then .trailingDirs else .innerDirs) :: parts.drop 1 }

/-- The two stars after the character `prev`, with `rest` behind them: what becomes of
them, and the text that is left. -/
def stars (r : Reading) (prev : Option Char) (rest : List Char) : Reading × List Char :=
  if r.parts.isEmpty then
    match rest with
    | [] => (r.push .leadingDirs, [])
    | '/' :: rest => (r.push .leadingDirs, rest)
    | _ => (r.pushStars, rest)
  else if prev ≠ some '/' then (r.pushStars, rest)
  else
    match rest with
    | [] => (r.pushDirs true, [])
    | '/' :: rest => (r.pushDirs false, rest)
    | c :: _ =>
      if (c = ',' ∨ c = '}') ∧ !r.frames.isEmpty then (r.pushDirs true, rest)
      else (r.pushStars, rest)

/-- Reads a text; `prev` is the character before it. The fuel is the text's length. -/
def read (r : Reading) (prev : Option Char) : (fuel : Nat) → List Char → Except Fault Reading
  | 0, _ => .ok r
  | _ + 1, [] => .ok r
  | fuel + 1, c :: rest =>
    if c = '?' then (r.push .any).read (some c) fuel rest
    else if c = '*' then
      match rest with
      | '*' :: rest =>
        let (r, left) := r.stars prev rest
        -- If the stars took a slash with them, the next ones begin a component again.
        r.read (some (if left.length < rest.length then '/' else '*')) fuel left
      | _ => (r.push .many).read (some c) fuel rest
    else if c = '[' then do
      let (part, rest) ← readClass rest
      (r.push part).read (some ']') fuel rest
    else if c = '{' then r.openChoice.read (some c) fuel rest
    else if c = '}' then do (← r.closeChoice).read (some c) fuel rest
    else if c = ',' then r.comma.read (some c) fuel rest
    else (r.push (.literal c)).read (some c) fuel rest

def finish (r : Reading) : Except Fault Pattern :=
  if r.frames.isEmpty then .ok r.parts.reverse else .error .unclosedChoice

end Reading

def Pattern.ofText (s : List Char) : Except Fault Pattern := do
  let r ← Reading.read {} none s.length s
  r.finish

end PatchLint.Glob
