import PatchLint.Files.Path
import PatchLint.Text.Octets

/-!
A tree of files, directories and symbolic links, and what programs do with it.

`Tree.walk` finds the place that a path stands for: name by name from a directory,
through the links on the way, with `..` taken from where the links lead. A path ends at
an entry or at a free place in a directory. All operations are stated through that, and
`Tree.set` and `Tree.erase` are the only changes.
-/

namespace PatchLint.Files

inductive Entry where
  | file (content : Octets)
  | dir
  | link (target : String)
  deriving DecidableEq, Repr, Inhabited

inductive Fault where
  | notFound
  | notDirectory
  | isDirectory
  | exists
  | tooManyLinks
  | nameTooLong
  /-- A path with a NUL in it. -/
  | badName
  /-- A file that is not UTF-8. -/
  | notText
  deriving DecidableEq, Repr, Inhabited

namespace Fault

def message : Fault → String
  | .notFound => "No such file or directory"
  | .notDirectory => "Not a directory"
  | .isDirectory => "Is a directory"
  | .exists => "File exists"
  | .tooManyLinks => "Too many levels of symbolic links"
  | .nameTooLong => "File name too long"
  | .badName => "file name contained an unexpected NUL byte"
  | .notText => "stream did not contain valid UTF-8"

end Fault

/-- The entries below the root. The root itself is always a directory. -/
structure Tree where
  entries : List (Location × Entry) := []
  deriving DecidableEq, Repr, Inhabited

/-- Where a path ends. -/
inductive Place where
  | taken (loc : Location) (entry : Entry)
  /-- A place in a directory where nothing is. `asDirectory` says that the path ends with
  a slash, so that only a directory may come there. -/
  | free (loc : Location) (asDirectory : Bool)
  deriving DecidableEq, Repr, Inhabited

namespace Tree

def entry? (t : Tree) (loc : Location) : Option Entry :=
  if loc = [] then some .dir
  else (t.entries.find? fun e => e.1 == loc).map Prod.snd

def erase (t : Tree) (loc : Location) : Tree :=
  ⟨t.entries.filter fun e => e.1 != loc⟩

def set (t : Tree) (loc : Location) (entry : Entry) : Tree :=
  ⟨(t.erase loc).entries ++ [(loc, entry)]⟩

/-! ### Finding a place -/

/-- A name may have this many octets. -/
def nameMax : Nat := 255

/-- A path has less than this many octets. -/
def pathMax : Nat := 4096

/-- This many links are followed on one path. -/
def linkMax : Nat := 40

/-- Walks `names` down from the directory `loc`, following at most `links` links. A link
under the last name is followed if `follow` says so or a slash comes after it. -/
def walk (t : Tree) (follow : Bool) (links : Nat) (asDirectory : Bool) (loc : Location)
    (names : List String) : Except Fault Place :=
  match names with
  | [] => .ok (.taken loc .dir)
  | name :: rest =>
    if name = "." then walk t follow links asDirectory loc rest
    else if name = ".." then walk t follow links asDirectory loc.dropLast rest
    else if nameMax < name.utf8ByteSize then .error .nameTooLong
    else
      let here := loc ++ [name]
      match t.entry? here with
      | none => if rest.isEmpty then .ok (.free here asDirectory) else .error .notFound
      | some .dir => walk t follow links asDirectory here rest
      | some (.file content) =>
        if rest.isEmpty && !asDirectory then .ok (.taken here (.file content))
        else .error .notDirectory
      | some (.link target) =>
        if rest.isEmpty && !follow && !asDirectory then .ok (.taken here (.link target))
        else
          match links with
          | 0 => .error .tooManyLinks
          | links + 1 =>
            -- The names of the target come first, as seen from where the link is.
            walk t follow links (asDirectory || rest.isEmpty && Path.endsWithSlash target)
              (if Path.isAbsolute target then [] else loc) (Path.names target ++ rest)
termination_by (links, names.length)

def checkPath (path : String) : Except Fault Unit := do
  if path.toList.contains '\x00' then throw .badName
  if path.isEmpty then throw .notFound
  if pathMax ≤ path.utf8ByteSize then throw .nameTooLong

def placeOf (t : Tree) (follow asDirectory : Bool) (cwd : Location) (path : String) :
    Except Fault Place := do
  checkPath path
  t.walk follow linkMax asDirectory (if Path.isAbsolute path then [] else cwd)
    (Path.names path)

/-- The place of a path, with a link at its end followed. -/
def resolve (t : Tree) (cwd : Location) (path : String) : Except Fault Place :=
  t.placeOf true (Path.endsWithSlash path) cwd path

/-- The place of a path, which may be a link. -/
def resolveKept (t : Tree) (cwd : Location) (path : String) : Except Fault Place :=
  t.placeOf false (Path.endsWithSlash path) cwd path

/-! ### Looking -/

def find (t : Tree) (cwd : Location) (path : String) : Except Fault (Location × Entry) := do
  match ← t.resolve cwd path with
  | .taken loc entry => return (loc, entry)
  | .free _ _ => throw .notFound

def isThere (t : Tree) (cwd : Location) (path : String) : Bool :=
  (t.find cwd path).isOk

def isFile (t : Tree) (cwd : Location) (path : String) : Bool :=
  match t.find cwd path with
  | .ok (_, .file _) => true
  | _ => false

def isDirectory (t : Tree) (cwd : Location) (path : String) : Bool :=
  match t.find cwd path with
  | .ok (_, .dir) => true
  | _ => false

/-- The location that a path stands for, with all links followed. -/
def canonical (t : Tree) (cwd : Location) (path : String) : Except Fault Location := do
  let (loc, _) ← t.find cwd path
  return loc

def read (t : Tree) (cwd : Location) (path : String) : Except Fault Octets := do
  match ← t.find cwd path with
  | (_, .file content) => return content
  | _ => throw .isDirectory

def readText (t : Tree) (cwd : Location) (path : String) : Except Fault String := do
  match (← t.read cwd path).text? with
  | some s => return s
  | none => throw .notText

/-! ### Changing -/

def makeDirectory (t : Tree) (cwd : Location) (path : String) : Except Fault Tree := do
  match ← t.resolveKept cwd path with
  | .taken _ _ => throw .exists
  | .free loc _ => return t.set loc .dir

/-- Makes the first of the directories, each of which lies in the next. A directory that
is there already will do. -/
def makeUpward (t : Tree) (cwd : Location) : List (List Char) → Except Fault Unit × Tree
  | [] => (.error .notFound, t)
  | path :: above =>
    let path := String.ofList path
    let orThere (t : Tree) (e : Fault) : Except Fault Unit × Tree :=
      (if t.isDirectory cwd path then .ok () else .error e, t)
    if path = "" then (.ok (), t)
    else
      match t.makeDirectory cwd path with
      | .ok t => (.ok (), t)
      | .error .notFound =>
        match t.makeUpward cwd above with
        | (.error e, t) => (.error e, t)
        | (.ok _, t) =>
          match t.makeDirectory cwd path with
          | .ok t => (.ok (), t)
          | .error e => orThere t e
      | .error e => orThere t e

/-- Makes a directory and those above it that are missing; the ones that were made stay
if a later one cannot be made. -/
def makeDirectories (t : Tree) (cwd : Location) (path : String) : Except Fault Unit × Tree :=
  t.makeUpward cwd (Path.ancestors path.toList)

/-- Makes an empty file, or empties the one that is there. -/
def create (t : Tree) (cwd : Location) (path : String) : Except Fault Tree := do
  match ← t.resolve cwd path with
  | .taken loc (.file _) => return t.set loc (.file [])
  | .free loc false => return t.set loc (.file [])
  | _ => throw .isDirectory

/-- The content with a piece put at an offset, over what is there. -/
def overwrite (content : Octets) (offset : Nat) (piece : Octets) : Octets :=
  content.take offset ++ List.replicate (offset - content.length) 0 ++ piece ++
    content.drop (offset + piece.length)

def write (t : Tree) (cwd : Location) (path : String) (offset : Nat) (piece : Octets) :
    Except Fault Tree := do
  match ← t.find cwd path with
  | (loc, .file content) => return t.set loc (.file (overwrite content offset piece))
  | _ => throw .isDirectory

/-- The tree with a file of this content at a path, and the directories it lies in; the
same tree where there can be no such file. -/
def store (t : Tree) (cwd : Location) (path : String) (content : Octets) : Tree :=
  let parent := ((Path.parent? path.toList).map String.ofList).getD ""
  let t := if parent = "" then t else (t.makeDirectories cwd parent).2
  let stored := do (← t.create cwd path).write cwd path 0 content
  match stored with
  | .ok t => t
  | .error _ => t

/-- Moves a file or a link to another path, over a file or a link that is there. -/
def move (t : Tree) (cwd : Location) (source target : String) : Except Fault Tree := do
  match ← t.resolveKept cwd source with
  | .free _ _ => throw .notFound
  | .taken _ .dir => throw .isDirectory
  | .taken old entry =>
    match ← t.resolveKept cwd target with
    | .taken _ .dir => throw .isDirectory
    | .free _ true => throw .notDirectory
    | .taken loc _ | .free loc false => return (t.erase old).set loc entry

def remove (t : Tree) (cwd : Location) (path : String) : Except Fault Tree := do
  match ← t.placeOf false false cwd path with
  | .free _ _ => throw .notFound
  | .taken _ .dir => throw .isDirectory
  -- Only now does a slash at the end matter, since the kind of the entry is looked at first.
  | .taken loc _ => if Path.endsWithSlash path then throw .notDirectory else return t.erase loc

end Tree

end PatchLint.Files
