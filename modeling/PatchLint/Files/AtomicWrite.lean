import PatchLint.Files.Tree

/-!
Replacing the content of a file so that no reader finds half of it.

The content is written to a file beside the target and moved over it. `AtomicWrite.steps`
is the whole plan; `runAll` runs a plan to its end or to the first step that fails,
after which a temporary file that was made is removed again. Directories that were made
stay.
-/

namespace PatchLint.Files

inductive WriteFault where
  | noParent (path : String) (cause : Fault)
  /-- A path that does not end in the name of a file. -/
  | noName (path : String)
  | noTemporary (path : String) (cause : Fault)
  | notWritten (path : String) (cause : Fault)
  | notReplaced (path : String) (cause : Fault)
  deriving DecidableEq, Repr, Inhabited

namespace AtomicWrite

/-- The path of the file that the content is written to first: beside the target, and
named after it. -/
def temporary? (path : List Char) : Option String := do
  let name ← Path.fileName? path
  let parent ← Path.parent? path
  return Path.join (String.ofList parent) (String.ofList ('.' :: name ++ ['.', 't', 'm', 'p']))

inductive Step where
  /-- Makes the directory and those above it, unless it is there. -/
  | makeParent (path : String)
  /-- Finds that the path names no file. -/
  | refuse (path : String)
  | create (temporary : String)
  | write (temporary : String) (offset : Nat) (piece : Octets)
  /-- Waits until the content is on the disk. -/
  | sync (temporary : String)
  | replace (temporary target : String)
  deriving DecidableEq, Repr, Inhabited

/-- The steps that write pieces one after the other, from an offset on. -/
def writes (temporary : String) (offset : Nat) : List Octets → List Step
  | [] => []
  | piece :: rest =>
    .write temporary offset piece :: writes temporary (offset + piece.length) rest

def steps (path : String) (pieces : List Octets) : List Step :=
  ((Path.parent? path.toList).map fun p => Step.makeParent (String.ofList p)).toList ++
  match temporary? path.toList with
  | none => [.refuse path]
  | some temporary =>
    .create temporary :: writes temporary 0 pieces ++
      [.sync temporary, .replace temporary path]

/-- The tree after a change, or the fault of a step and the same tree. -/
def outcome (t : Tree) (fault : Fault → WriteFault) (r : Except Fault Tree) :
    Except WriteFault Unit × Tree :=
  match r with
  | .ok t' => (.ok (), t')
  | .error e => (.error (fault e), t)

namespace Step

def run (cwd : Location) (t : Tree) : Step → Except WriteFault Unit × Tree
  | .makeParent path =>
    if path = "" || t.isThere cwd path then (.ok (), t)
    else
      let (r, t) := t.makeDirectories cwd path
      (r.mapError (.noParent path), t)
  | .refuse path => (.error (.noName path), t)
  | .create temporary => outcome t (.noTemporary temporary) (t.create cwd temporary)
  | .write temporary offset piece =>
    outcome t (.notWritten temporary) (t.write cwd temporary offset piece)
  -- What is written is in the tree at once.
  | .sync _ => (.ok (), t)
  | .replace temporary target => outcome t (.notReplaced target) (t.move cwd temporary target)

/-- The tree after the step failed and the temporary file was removed. -/
def cleanUp (cwd : Location) (t : Tree) : Step → Tree
  | .write temporary _ _ | .sync temporary | .replace temporary _ =>
    match t.remove cwd temporary with
    | .ok t => t
    | .error _ => t
  -- Before it is made there is no temporary file to remove.
  | _ => t

end Step

def runAll (cwd : Location) (t : Tree) : List Step → Except WriteFault Unit × Tree
  | [] => (.ok (), t)
  | step :: rest =>
    match step.run cwd t with
    | (.ok _, t) => runAll cwd t rest
    | (.error e, t) => (.error e, step.cleanUp cwd t)

end AtomicWrite

/-- Replaces the content of a file, or makes the file, with the directories it lies in. -/
def Tree.replaceContent (t : Tree) (cwd : Location) (path : String) (content : Octets) :
    Except WriteFault Unit × Tree :=
  AtomicWrite.runAll cwd t (AtomicWrite.steps path [content])

end PatchLint.Files
