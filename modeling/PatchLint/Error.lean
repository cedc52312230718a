import PatchLint.Files.AtomicWrite
import PatchLint.Lint.Input
import PatchLint.Lint.Introduced
import PatchLint.Settings.Basic

/-!
Why a run fails, and what is said about it.

An `Error` holds the cause. `Error.message` is its wording, in which a `Detail`, such
as what the operating system says, is worded by a function of its own;
`Error.exitCode` is what the program ends with, one code for each area of failure.
-/

namespace PatchLint

/-- Why a run fails. -/
inductive Error where
  /-- Messages were introduced since the base revision. -/
  | introduced (summary base : String)
  | diff (fault : Diff.Fault)
  | lintInput (fault : Lint.InputFault)
  | settings (fault : Settings.Fault)
  | unclosedQuote (command : String)
  | emptyCommand
  | unreadable (path : String) (fault : Files.Fault)
  | unreadableInput (fault : Files.Fault)
  | unreadableSettings (path : String) (fault : Files.Fault)
  | notSaved (fault : Files.WriteFault)
  | cacheNotRemoved (path : String) (fault : Files.Fault)
  | inaccessible (path : String) (fault : Files.Fault)
  | inaccessibleRoot (path : String) (fault : Files.Fault)
  | outside (path root : String)
  | noWorkingCopy (vcs : Vcs)
  /-- A tool of a version control system that cannot be started. -/
  | toolNotStarted (program argument : String)
  /-- A tool of a version control system that fails, with what it says. -/
  | toolFailed (program argument : String) (code : Int) (said : String)
  | linterNotStarted (program : String)
  | linterFailed (command : String) (code : Int) (path said : String)
  deriving Repr, Inhabited

/-- What a message cites from elsewhere. -/
inductive Detail where
  | json
  | yaml
  | file (fault : Files.Fault)
  | start
  deriving DecidableEq, Repr, Inhabited

def Detail.text : Detail → String
  | .json => "syntax error"
  | .yaml => "not the expected document"
  | .file fault => fault.message
  | .start => "cannot be started"

namespace Error

/-- The areas in which a run can fail. -/
inductive Kind where
  | newMessages
  | userError
  | malformedLintInput
  | vcsError
  | linterError
  | malformedDiff
  | unresolvableLineNumber
  deriving DecidableEq, Repr, Inhabited

def Kind.exitCode : Kind → Nat
  | .newMessages => 1
  | .userError | .malformedLintInput => 2
  | .vcsError => 3
  | .linterError => 4
  | .malformedDiff | .unresolvableLineNumber => 5

def kind : Error → Kind
  | .introduced .. => .newMessages
  | .diff (.unmapped _) => .unresolvableLineNumber
  | .diff _ => .malformedDiff
  | .lintInput _ => .malformedLintInput
  | .toolNotStarted .. | .toolFailed .. => .vcsError
  | .linterNotStarted _ | .linterFailed .. => .linterError
  | _ => .userError

/-- The exit code of a run that fails. -/
def exitCode (e : Error) : Nat := e.kind.exitCode

end Error

def Diff.Fault.message : Diff.Fault → String
  | .badHeader line => s!"Malformed diff: invalid hunk header '{line}'"
  | .secondFile line => s!"Malformed diff: diff covers more than one file (unexpected '{line}')"
  | .lineOverflow line => s!"Malformed diff: line number {Text.decimal line} overflows"
  | .unmapped line =>
    s!"Cannot map line {Text.decimal line} of the new file to the old file: " ++
      "the diff has no information for it"

def Lint.InputFault.message (detail : Detail → String) : Lint.InputFault → String
  | .notJson => s!"Malformed lint input: linter output is not valid JSON: {detail .json}"
  | .notArray => "Malformed lint input: linter output must be a JSON array"
  | .badRecord cause => s!"Malformed lint input: invalid lint record: {cause.message}"
  | .badResult cause => s!"Malformed lint input: invalid linter result: {cause.message}"

def FileFilter.Fault.message (f : FileFilter.Fault) : String :=
  s!"invalid glob '{f.glob}' in {f.field}: error parsing glob '{f.normal}': {f.cause.message}"

def Settings.Fault.message (detail : Detail → String) : Settings.Fault → String
  | .notYaml => s!"failed to parse config YAML: {detail .yaml}"
  | .noCommand => "config validation failed: linter_command must not be empty"
  | .unclosedQuote =>
    "config validation failed: linter_command cannot be parsed (missing closing quote). " ++
      "Check for unmatched quotes."
  | .noPattern =>
    "config validation failed: include_globs must contain at least one pattern"
  | .badGlob cause => s!"config validation failed: {cause.message}"
  | .noCachePath =>
    "config validation failed: cache_path must be non-empty when cache_enabled is true"

def Files.WriteFault.message (detail : Detail → String) : Files.WriteFault → String
  | .noParent path cause =>
    s!"failed to create parent directory '{path}': {detail (.file cause)}"
  | .noName path => s!"invalid file path '{path}'"
  | .noTemporary path cause =>
    s!"failed to create temporary file '{path}': {detail (.file cause)}"
  | .notWritten path cause =>
    s!"failed to write temporary file '{path}': {detail (.file cause)}"
  | .notReplaced path cause =>
    s!"failed to atomically replace '{path}': {detail (.file cause)}"

/-- What is missing where no working copy is. -/
def Vcs.missing : Vcs → String
  | .git =>
    "not inside a git repository. Run this command from within a git repository, " ++
      "or set `vcs: svn` in .lintdelta.yaml."
  | .svn =>
    "not inside a subversion working copy. Run this command from within a working copy, " ++
      "or set `vcs: git` in .lintdelta.yaml."

namespace Error

/-- The wording of an error, with its details worded by `detail`. -/
def messageWith (detail : Detail → String) : Error → String
  | .introduced summary base => s!"{summary} introduced since {base}"
  | .diff fault => fault.message
  | .lintInput fault => fault.message detail
  | .settings fault => fault.message detail
  | .unclosedQuote command =>
    s!"failed to parse linter command: missing closing quote\nCommand: {command}\n" ++
      "Fix: check for unmatched quotes or invalid escape sequences."
  | .emptyCommand => "linter command is empty"
  | .unreadable path fault => s!"failed to read '{path}': {detail (.file fault)}"
  | .unreadableInput fault => s!"failed to read stdin: {detail (.file fault)}"
  | .unreadableSettings path fault =>
    s!"failed to read config file '{path}': {detail (.file fault)}"
  | .notSaved fault => fault.message detail
  | .cacheNotRemoved path fault =>
    s!"failed to remove lint cache '{path}': {detail (.file fault)}"
  | .inaccessible path fault => s!"cannot access '{path}': {detail (.file fault)}"
  | .inaccessibleRoot path fault =>
    s!"cannot access repository root '{path}': {detail (.file fault)}"
  | .outside path root => s!"'{path}' is outside the repository at '{root}'"
  | .noWorkingCopy vcs => vcs.missing
  | .toolNotStarted program argument =>
    s!"VCS operation failed: failed to execute {program} {argument}: {detail .start}"
  | .toolFailed program argument code said =>
    let code := String.ofList (Json.intText code)
    s!"VCS operation failed: {program} {argument} failed (exit code {code}): {said}"
  | .linterNotStarted program =>
    s!"Linter failed: failed to execute '{program}': {detail .start}\n" ++
      "Fix: ensure the linter is installed and in PATH."
  | .linterFailed command code path said =>
    let code := String.ofList (Json.intText code)
    s!"Linter failed: '{command}' exited with code {code} while linting {path}\n{said}"

def message (e : Error) : String := e.messageWith Detail.text

end Error

end PatchLint
