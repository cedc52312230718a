import PatchLint.Text.Basic
import PatchLint.Vcs.Call

/-!
Working copies under Subversion.
-/

namespace PatchLint.Vcs.Svn

def call (directory : String) (arguments : List String) : Session Reply :=
  Vcs.call "svn" directory arguments

def root (directory : String) : Session String := do
  return (← call directory ["info", "--show-item", "wc-root"]).word

/-! ### The summary of changes -/

/-- The first columns of a line of the summary, in octets, hold the kind of change. -/
def statusWidth : Nat := 8

/-- The kinds of changes after which there is a file to look at. -/
def isPresent (status : Char) : Bool := status == 'A' || status == 'M' || status == 'R'

/-- The characters after so many octets, if a character starts there. -/
def afterOctets : (count : Nat) → List Char → Option (List Char)
  | 0, s => some s
  | _ + 1, [] => none
  | count + 1, c :: s =>
    if c.utf8Size ≤ count + 1 then afterOctets (count + 1 - c.utf8Size) s else none
termination_by _ s => s.length

/-- The path in a line of the summary, if there is a file to look at. -/
def summaryPath? (line : List Char) : Option String :=
  match line with
  | [] => none
  | status :: _ =>
    if isPresent status then
      match (afterOctets statusWidth line).map Text.trim with
      | none | some [] => none
      | some path => some (String.ofList (Text.slashed path))
    else none

def summaryPaths (text : String) : List String :=
  (Text.toolLines text.toList).filterMap summaryPath?

/-! ### Questions -/

def changedFiles (directory base : String) : Session (List String) := do
  return summaryPaths (← call directory ["diff", "--summarize", "-r", base]).text

def fileDiff (directory base path : String) (contextLines : Nat) : Session String := do
  let reply ← call directory
    ["diff", "-r", base, "-x", "-U" ++ Text.decimal contextLines, path]
  return reply.text

/-- The codes by which the tool says that a path is not in a revision. -/
def missingCodes : List String := ["W160013", "E160013", "E200009", "E195012"]

def saysMissing : Error → Bool
  | e@(.toolNotStarted ..) | e@(.toolFailed ..) =>
    missingCodes.any fun code => Text.occurs code.toList e.message.toList
  | _ => false

/-- The content of a file in the base revision, if it is there. -/
def baseContent (directory base path : String) : Session (Option String) := do
  match ← Session.attempt (call directory ["cat", "-r", base, path]) with
  | .ok reply => return some reply.text
  | .error e => if saysMissing e then return none else Session.fail e

def fileId (directory base path : String) : Session String := do
  let reply ← call directory
    ["info", "--show-item", "last-changed-revision", "-r", base, path]
  return "r" ++ reply.word

end PatchLint.Vcs.Svn
