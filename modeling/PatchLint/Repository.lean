import PatchLint.Settings.Reader
import PatchLint.Vcs.Git
import PatchLint.Vcs.Svn

/-!
The repository that a run works in.

Its settings are in the file that the run is told, or in the nearest directory upward
that has one; without any the defaults hold. The version control system tells where the
working copy begins, and paths are given as seen from there. A directory in which it does
not find its working copy is an error of its own; other failures are passed on.
-/

namespace PatchLint

open PatchLint.Files (Location Tree)

/-! ### What is asked of a version control system, whichever it is -/

namespace Vcs

def root (vcs : Vcs) (directory : String) : Session String := do
  let found ← Session.attempt <|
    match vcs with
    | .git => Git.root directory
    | .svn => Svn.root directory
  match found with
  | .ok top => return top
  | .error _ => Session.fail (.noWorkingCopy vcs)

def changedFiles : Vcs → (root base : String) → Session (List String)
  | .git => Git.changedFiles
  | .svn => Svn.changedFiles

def fileDiff : Vcs → (root base path : String) → (contextLines : Nat) → Session String
  | .git => Git.fileDiff
  | .svn => Svn.fileDiff

/-- The content of a file in the base revision, if it is there. -/
def baseContent : Vcs → (root base path : String) → Session (Option String)
  | .git => Git.baseContent
  | .svn => Svn.baseContent

def fileId : Vcs → (root base path : String) → Session String
  | .git => Git.fileId
  | .svn => Svn.fileId

end Vcs

/-! ### Repositories -/

structure Repository where
  /-- The top of the working copy, as the version control system writes it. -/
  root : String
  settings : Settings
  /-- The file that the settings come from. -/
  settingsPath : Option String
  vcs : Vcs
  deriving Repr, Inhabited

namespace Repository

/-! ### Settings -/

def settingsIn (dir : Location) : String := Files.Path.join dir.text Settings.fileName

/-- The path of the nearest settings from a directory upward. -/
def nearestSettings? (files : Tree) (dir : Location) : Option String :=
  (dir.upward.map settingsIn).find? (files.isFile dir)

def readSettings (files : Tree) (dir : Location) (path : String) : Except Error Settings := do
  let text ← (files.readText dir path).mapError (.unreadableSettings path)
  (Settings.ofYaml text).mapError .settings

/-! ### The repository -/

/-- The repository around the directory of the host. The settings may be told by their
path, and the version control system by its name. -/
def find (settings : Option String) (vcs : Option Vcs) : Session Repository := do
  let settingsPath ← Session.look fun host => .ok <|
    match settings with
    | some path => some (Files.Path.join host.directory.text path)
    | none => nearestSettings? host.files host.directory
  let found ← Session.look fun host =>
    match settingsPath with
    | some path => readSettings host.files host.directory path
    | none => .ok {}
  let vcs := vcs.getD found.vcs
  let directory ← Session.look fun host => .ok host.directory.text
  let root ← vcs.root directory
  return ⟨root, found, settingsPath, vcs⟩

def cachePath (r : Repository) : String := Files.Path.join r.root r.settings.cachePath

/-- The path of a file as seen from the top of the working copy, with all links followed. -/
def relative (r : Repository) (files : Tree) (dir : Location) (path : String) :
    Except Error String := do
  let file ← (files.canonical dir (Files.Path.join dir.text path)).mapError (.inaccessible path)
  let root ← (files.canonical dir r.root).mapError (.inaccessibleRoot r.root)
  match Location.below? root file with
  | some names => return "/".intercalate names
  | none => throw (.outside path root.text)

end Repository

end PatchLint
