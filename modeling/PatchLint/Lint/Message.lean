import PatchLint.Json.Value

/-!
Lint messages.

Of a message only the line, the file and the severity are interpreted here. All else
that a linter says (its text, the column, the rule) is a property, kept in order and
passed through unchanged. `Messages` is a list of messages in the linter's order.
-/

namespace PatchLint.Lint

open PatchLint (Json Members)

inductive Severity where
  | error
  | warning
  deriving DecidableEq, Repr, Inhabited

namespace Severity

def name : Severity → String
  | .error => "ERROR"
  | .warning => "WARNING"

def word : Severity → String
  | .error => "error"
  | .warning => "warning"

def ofName? (s : String) : Option Severity :=
  if s = "ERROR" then some .error
  else if s = "WARNING" then some .warning
  else none

end Severity

structure Message where
  /-- The line it is about, from 1; absent or 0 when it is about the whole file. -/
  line : Option Nat
  /-- The file it is about, once that is known. -/
  path : Option String
  severity : Severity
  /-- What else the linter says, in its order. -/
  properties : Members
  deriving Repr, Inhabited

namespace Message

/-- A message with a text and no other property. -/
def ofText (line : Option Nat) (severity : Severity) (text : String) : Message :=
  ⟨line, none, severity, [("message", .str text)]⟩

def withProperty (m : Message) (key : String) (value : Json) : Message :=
  { m with properties := m.properties.set key value }

def relabel (path : String) (m : Message) : Message :=
  { m with path := some path }

/-- The line, unless the message is about the whole file. -/
def anchor (m : Message) : Option Nat :=
  m.line.filter (0 < ·)

def isError (m : Message) : Bool := m.severity == .error

def text (m : Message) : Option String := (m.properties.get? "message").bind Json.string?

def column (m : Message) : Option Nat := (m.properties.get? "column").bind Json.nat?

/-- The rule that the message comes from. -/
def source (m : Message) : Option String := (m.properties.get? "source").bind Json.string?

/-- The linter could mend it. -/
def fixable (m : Message) : Bool :=
  ((m.properties.get? "fixable").bind Json.bool?).getD false

end Message

/-- Messages in the order in which the linter gave them. -/
abbrev Messages := List Message

namespace Messages

def hasLine (ms : Messages) (line : Nat) : Bool :=
  ms.any fun m => m.line == some line

def relabel (path : String) (ms : Messages) : Messages :=
  ms.map (Message.relabel path)

def errorCount (ms : Messages) : Nat := ms.countP Message.isError

def warningCount (ms : Messages) : Nat := ms.length - ms.errorCount

end Messages

end PatchLint.Lint
