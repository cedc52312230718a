import PatchLint.Session
import PatchLint.Text.Basic

/-!
Calls of the tools of version control systems.

A tool must end well; what it says when it does not becomes part of the error. What it
writes is read as text, whatever octets it has.
-/

namespace PatchLint.Vcs

structure Reply where
  text : String
  /-- What it wrote as errors, without blanks around it. -/
  errors : String
  deriving DecidableEq, Repr, Inhabited

namespace Reply

def ofOutcome (o : Outcome) : Reply :=
  ⟨o.output.lossyText, Text.trimmed o.errors.lossyText⟩

def isBlank (r : Reply) : Bool := Text.allBlank r.text

/-- The lines that are not blank, without the blanks at their ends. -/
def lines (r : Reply) : List String :=
  ((Text.toolLines r.text.toList).map Text.trimEnd).filter (· ≠ []) |>.map String.ofList

def word (r : Reply) : String := Text.trimmed r.text

def complaint (r : Reply) : String :=
  if r.errors = "" then Text.trimmed r.text else r.errors

end Reply

/-- The first argument of a call, by which errors name it. -/
def subject (arguments : List String) : String := arguments.headD ""

def start (program : String) (directory : String) (arguments : List String) :
    Session Outcome := do
  match ← Session.start program arguments directory [] with
  | some outcome => return outcome
  | none => Session.fail (.toolNotStarted program (subject arguments))

def call (program : String) (directory : String) (arguments : List String) :
    Session Reply := do
  let outcome ← start program directory arguments
  let reply := Reply.ofOutcome outcome
  if outcome.isSuccess then return reply
  else
    Session.fail
      (.toolFailed program (subject arguments) outcome.codeNumber reply.complaint)

end PatchLint.Vcs
