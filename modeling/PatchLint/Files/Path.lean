import PatchLint.Text.Basic

/-!
Paths as texts, and locations.

A path is what users and tools write: names with slashes between them, relative or
absolute, with `.` and `..` anywhere. `parent?` and `fileName?` look at the text
alone; a slash or a `.` at the end of a path does not count there. A `Location` is the
list of names from the root down, without any of that.
-/

namespace PatchLint.Files

/-- A place in the tree: the names from the root down to it. -/
abbrev Location := List String

def Location.text (loc : Location) : String :=
  "/" ++ "/".intercalate loc

/-- A place is below or at another one; gives the names in between. -/
def Location.below? : (root loc : Location) → Option (List String)
  | [], rest => some rest
  | _ :: _, [] => none
  | name :: root, name' :: loc => if name = name' then below? root loc else none

/-- The place and all places above it, the nearest first. -/
def Location.upward (loc : Location) : List Location :=
  ((List.range (loc.length + 1)).map loc.take).reverse

namespace Path

/-- What stands between the slashes of a path. -/
def parts : List Char → List (List Char)
  | [] => [[]]
  | c :: rest => if c = '/' then [] :: parts rest else Text.consLine c (parts rest)

/-- The names of a path: what stands between its slashes and is not empty. -/
def names (path : String) : List String :=
  ((parts path.toList).filter (· ≠ [])).map String.ofList

def isAbsolute (path : String) : Bool :=
  path.toList.head? == some '/'

/-- The path ends with a slash, so it stands for a directory. -/
def endsWithSlash (path : String) : Bool :=
  path.toList.getLast? == some '/'

/-- The path `path` as seen from the directory `dir`. -/
def join (dir path : String) : String :=
  if isAbsolute path then path
  else if dir = "" || endsWithSlash dir then dir ++ path
  else dir ++ "/" ++ path

/-! ### The last name and what is before it -/

/-- How many characters at the start of a path are no name: the slash of an absolute
path, or a dot that is the whole first part. -/
def leadLength : List Char → Nat
  | '/' :: _ => 1
  | ['.'] => 1
  | '.' :: '/' :: _ => 1
  | _ => 0

def lastPart (s : List Char) : List Char :=
  (s.reverse.takeWhile (· ≠ '/')).reverse

/-- What stands before the last slash; nothing if there is none. -/
def beforeLast (s : List Char) : List Char :=
  ((s.reverse.dropWhile (· ≠ '/')).drop 1).reverse

theorem beforeLast_length_lt {s : List Char} (h : s ≠ []) :
    (beforeLast s).length < s.length := by
  have hs : 0 < s.length := List.length_pos_iff.2 h
  have hd := (List.dropWhile_sublist (l := s.reverse) (· ≠ '/')).length_le
  simp only [List.length_reverse] at hd
  simp only [beforeLast, List.length_reverse, List.length_drop]
  omega

/-- The names without the empty parts and the dots at their end. -/
def settle (s : List Char) : List Char :=
  if h : s = [] then []
  else if lastPart s = [] ∨ lastPart s = ['.'] then
    have := beforeLast_length_lt h
    settle (beforeLast s)
  else s
termination_by s.length

def body (path : List Char) : List Char :=
  settle (path.drop (leadLength path))

/-- The path without its last name; the root and the empty path have none. -/
def parent? (path : List Char) : Option (List Char) :=
  let lead := path.take (leadLength path)
  match body path with
  | [] => if lead = ['.'] then some [] else none
  | b => some (lead ++ settle (beforeLast b))

/-- The last name, unless the path has none or ends in `..`. -/
def fileName? (path : List Char) : Option (List Char) :=
  match body path with
  | [] => none
  | b => if lastPart b = ['.', '.'] then none else some (lastPart b)

def ancestorsFrom : (fuel : Nat) → List Char → List (List Char)
  | 0, _ => []
  | fuel + 1, path =>
    path ::
      match parent? path with
      | none => []
      | some up => ancestorsFrom fuel up

/-- The path and the paths of the directories above it, the nearest first. -/
def ancestors (path : List Char) : List (List Char) :=
  ancestorsFrom (path.length + 1) path

end Path

end PatchLint.Files
