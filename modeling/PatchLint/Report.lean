import PatchLint.Json.Printer
import PatchLint.Lint.Record
import PatchLint.Text.Basic

/-!
Reports of messages.

`Format.text` groups the messages by file, each group behind its file's path, and ends
with a summary; `Format.compact` writes one line for each message; `Format.json`
writes the records, which `Messages.ofOutput` reads back.
-/

namespace PatchLint

open PatchLint.Lint (Message Messages)

namespace Report

inductive Format where
  | text
  | compact
  | json
  deriving DecidableEq, Repr, Inhabited

namespace Format

def all : List Format := [.text, .compact, .json]

def name : Format → String
  | .text => "text"
  | .compact => "compact"
  | .json => "json"

def ofName? (s : String) : Option Format :=
  all.find? fun f => f.name == s

end Format

/-- What stands for the path of a message that has none. -/
def unknownPath : String := "<unknown>"

def pathOf (m : Message) : String := m.path.getD unknownPath

def counted (count : Nat) (noun : String) : String :=
  Text.decimal count ++ " " ++ noun ++ if count = 1 then "" else "s"

/-- The counts of a set of messages in one line. -/
def summary (ms : Messages) : String :=
  counted ms.length "new problem" ++ " (" ++ counted ms.errorCount "error" ++ ", " ++
    counted ms.warningCount "warning" ++ ")"

/-! ### By file -/

abbrev Group := String × Messages

/-- Adds a message to the group of its path, or opens one at the end. -/
def addTo (path : String) (m : Message) : List Group → List Group
  | [] => [(path, [m])]
  | (p, ms) :: rest =>
    if p = path then (p, ms ++ [m]) :: rest else (p, ms) :: addTo path m rest

/-- The messages grouped by path, in the order in which the paths first appear. -/
def groups (ms : Messages) : List Group :=
  ms.foldl (fun gs m => addTo (pathOf m) m gs) []

/-- Line and column of a message, as far as it has them. -/
def position (m : Message) : String :=
  match m.anchor, m.column with
  | some line, some column => Text.decimal line ++ ":" ++ Text.decimal column
  | some line, none => Text.decimal line
  | none, _ => "-"

def padLeft (width : Nat) (s : String) : String :=
  String.ofList (List.replicate (width - s.length) ' ') ++ s

def padRight (width : Nat) (s : String) : String :=
  s ++ String.ofList (List.replicate (width - s.length) ' ')

def entry (m : Message) : String :=
  let source := match m.source with
    | some s => "  " ++ s
    | none => ""
  "  " ++ padLeft 8 (position m) ++ "  " ++ padRight 7 m.severity.word ++ "  " ++
    m.text.getD "" ++ source ++ "\n"

/-- A group: its path, its messages and an empty line. -/
def groupText (g : Group) : String :=
  g.1 ++ "\n" ++ String.join (g.2.map entry) ++ "\n"

/-- The report for readers. -/
def text (ms : Messages) : String :=
  if ms.isEmpty then "No new lint messages.\n"
  else String.join ((groups ms).map groupText) ++ summary ms ++ "\n"

/-! ### By line -/

/-- The line of a message in the compact report, without its line end. -/
def compactLine (m : Message) : String :=
  let source := match m.source with
    | some s => " [" ++ s ++ "]"
    | none => ""
  pathOf m ++ ":" ++ Text.decimal (m.anchor.getD 0) ++ ":" ++ Text.decimal (m.column.getD 0) ++
    ": " ++ m.severity.word ++ ": " ++ m.text.getD "" ++ source

/-- The report for editors. -/
def compact (ms : Messages) : String :=
  String.join (ms.map fun m => compactLine m ++ "\n")

/-! ### As records -/

/-- The report for programs. -/
def json (ms : Messages) : String :=
  Json.text ms.toRecords ++ "\n"

def render : Format → Messages → String
  | .text => text
  | .compact => compact
  | .json => json

end Report

end PatchLint
