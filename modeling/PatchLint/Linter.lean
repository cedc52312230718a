import PatchLint.Session
import PatchLint.Text.Basic

/-!
The linter of a repository.

A linter is a command whose arguments may name the file by a placeholder. It is called
once for a file: the content is its input, and its output is read as messages about that
file. No command interpreter is in between, so what the path is put into stays one
argument.
-/

namespace PatchLint

open PatchLint.Lint (Messages)

structure Linter where
  command : String
  program : String
  arguments : List String
  deriving DecidableEq, Repr, Inhabited

namespace Linter

/-- What stands for the path in an argument. -/
def placeholder : List Char := ['{', 'p', 'a', 't', 'h', '}']

def ofCommand (command : String) : Except Error Linter :=
  match Words.split? command with
  | none => .error (.unclosedQuote command)
  | some [] => .error .emptyCommand
  | some (program :: arguments) => .ok ⟨command, program, arguments⟩

/-- An argument with the path in the place of every placeholder. -/
def argumentFor (path argument : String) : String :=
  String.ofList (Text.replace placeholder path.toList argument.toList)

def argumentsFor (linter : Linter) (path : String) : List String :=
  linter.arguments.map (argumentFor path)

/-- The exit codes of a linter that has done its work. -/
def isDone (code : Int) : Bool := code == 0 || code == 1

def complaintLength : Nat := 20

/-- The last lines of what a tool says. -/
def complaint (errors : Octets) : String :=
  let lines := Text.toolLines (Text.trim errors.lossyText.toList)
  "\n".intercalate ((lines.drop (lines.length - complaintLength)).map String.ofList)

def messages (linter : Linter) (path : String) (outcome : Outcome) : Except Error Messages :=
  if isDone outcome.codeNumber then do
    let ms ← (Messages.ofOutput outcome.output.lossyText).mapError .lintInput
    return ms.relabel path
  else
    .error (.linterFailed linter.command outcome.codeNumber path (complaint outcome.errors))

def lint (linter : Linter) (directory path content : String) : Session Messages := do
  let outcome ←
    Session.start linter.program (linter.argumentsFor path) directory (.ofText content)
  match outcome with
  | none => Session.fail (.linterNotStarted linter.program)
  | some outcome => Session.ofExcept (linter.messages path outcome)

end Linter

end PatchLint
