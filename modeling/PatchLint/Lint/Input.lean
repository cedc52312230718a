import PatchLint.Json.Reader
import PatchLint.Lint.Record
import PatchLint.Text.Basic

/-!
What a linter writes, read as messages.

The output is a JSON array, of records or, if it is not empty and every entry lists
findings, of results grouped by file. Output with nothing but white space has no
messages.

A result names a file and lists what was found there. A finding has a severity
number, of which 2 and above are errors, as are all fatal ones. Each becomes one
message, with the properties message, column, severity, fixable and source.
-/

namespace PatchLint.Lint

open PatchLint.Json (Mismatch Typed)

/-! ### Results by file -/

structure Finding where
  rule : Option String
  severity : Nat
  text : String
  line : Option Nat
  column : Option Nat
  fatal : Bool
  fixable : Bool

namespace Finding

/-- The least severity number of an error. -/
def errorSeverity : Nat := 2

/-- A fix is there unless it is null. -/
def hasFix : Json → Bool
  | .null => false
  | _ => true

structure Partial where
  rule : Option String := none
  severity : Option Nat := none
  text : Option String := none
  line : Option Nat := none
  column : Option Nat := none
  fatal : Bool := false
  fixable : Bool := false

/-- Takes one more member; an unknown one says nothing. -/
def Partial.take (p : Partial) (key : String) (value : Json) : Typed Partial :=
  if key = "ruleId" then return { p with rule := ← Json.asOption Json.asText value }
  else if key = "severity" then return { p with severity := some (← Json.asNat8 value) }
  else if key = "message" then return { p with text := some (← Json.asText value) }
  else if key = "line" then return { p with line := ← Json.asOption Json.asNat32 value }
  else if key = "column" then return { p with column := ← Json.asOption Json.asNat32 value }
  else if key = "fatal" then return { p with fatal := ← Json.asBool value }
  else if key = "fix" then return { p with fixable := hasFix value }
  else return p

def Partial.finding (p : Partial) : Typed Finding :=
  match p.severity, p.text with
  | none, _ => .error (.missing "severity")
  | _, none => .error (.missing "message")
  | some severity, some text =>
    .ok ⟨p.rule, severity, text, p.line, p.column, p.fatal, p.fixable⟩

/-- The fields in the order of a finding that is written as an array. -/
def fieldOrder : List String :=
  ["ruleId", "severity", "message", "line", "column", "fatal", "fix"]

def Partial.takeAll (p : Partial) : List String → List Json → Typed Partial
  | field :: fields, v :: vs => do (← p.take field v).takeAll fields vs
  | _, _ => return p

def arrayForm : String := "struct RawMessage with 7 elements"

/-- The finding of an array: the fields in order, of which those after the text may be
left out. -/
def ofArray (items : List Json) : Typed Finding := do
  let p ← Partial.takeAll {} fieldOrder items
  -- The rule counts in these lengths, though it has a default.
  if p.severity.isNone then throw (.tooShort 1 arrayForm)
  if p.text.isNone then throw (.tooShort 2 arrayForm)
  if fieldOrder.length < items.length then throw (.tooLong items.length)
  p.finding

def ofJson : Json → Typed Finding
  | .obj members => do
    let p ← members.foldlM (fun (p : Partial) (key, value) => p.take key value) {}
    p.finding
  | .arr items => ofArray items
  | v => .error (.wrongType v "struct RawMessage")

def message (path : Option String) (f : Finding) : Message where
  line := f.line
  path := path
  severity := if f.fatal || errorSeverity ≤ f.severity then .error else .warning
  properties := [
    ("message", .str f.text),
    ("column", Json.ofOption Json.ofNat f.column),
    ("severity", Json.ofNat f.severity),
    ("fixable", .bool f.fixable),
    ("source", Json.ofOption Json.str f.rule)]

end Finding

structure FileResult where
  path : Option String := none
  findings : List Finding := []

namespace FileResult

def take (r : FileResult) (key : String) (value : Json) : Typed FileResult :=
  if key = "filePath" then return { r with path := ← Json.asOption Json.asText value }
  else if key = "messages" then
    match value with
    | .arr items => return { r with findings := ← items.mapM Finding.ofJson }
    | v => throw (.wrongType v "a sequence")
  else return r

def ofJson : Json → Typed FileResult
  | .obj members => members.foldlM (fun (r : FileResult) (key, value) => r.take key value) {}
  | v => .error (.wrongType v "struct FileResult")

def messages (r : FileResult) : Messages :=
  r.findings.map (Finding.message r.path)

end FileResult

/-- The entry lists findings: it is an object with an array `messages`. -/
def isFileResult (entry : Json) : Bool :=
  ((entry.get? "messages").map Json.isArray).getD false

/-- The messages of all entries, file by file. -/
def Messages.ofResults (entries : List Json) : Typed Messages := do
  let results ← entries.mapM FileResult.ofJson
  return results.flatMap FileResult.messages

/-! ### Output -/

/-- Why the output of a linter cannot be read. -/
inductive InputFault where
  | notJson
  | notArray
  | badRecord (cause : Mismatch)
  | badResult (cause : Mismatch)
  deriving Repr, Inhabited

namespace Messages

def ofEntries (entries : List Json) : Except InputFault Messages :=
  -- An empty array is one of records; either reading would give no messages.
  if !entries.isEmpty && entries.all isFileResult then
    (ofResults entries).mapError .badResult
  else (ofRecords entries).mapError .badRecord

def ofJson : Json → Except InputFault Messages
  | .arr entries => ofEntries entries
  | _ => .error .notArray

def ofOutput (output : String) : Except InputFault Messages :=
  if Text.allBlank output then .ok []
  else
    match Json.read? output with
    | none => .error .notJson
    | some v => ofJson v

end Messages

end PatchLint.Lint
