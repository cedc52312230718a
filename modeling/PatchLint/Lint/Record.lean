import PatchLint.Json.Typed
import PatchLint.Lint.Message

/-!
Messages as flat JSON records.

A record has the members `line`, `filePath` and `type`, of which only the last must be
there, and every other member is a property. `Message.ofMembers` takes the members in
the order in which they are written, so the first one at fault decides; a member that
is missing comes after all that are there.
-/

namespace PatchLint.Lint

open PatchLint.Json (Mismatch Typed)

namespace Severity

/-- A severity by name; what is none is refused. -/
def ofName (s : String) : Typed Severity :=
  match ofName? s with
  | some v => .ok v
  | none => .error (.unknownName s ["ERROR", "WARNING"])

/-- A severity: its name, or an object with the name as its one key and null there. -/
def ofJson : Json → Typed Severity
  | .str s => ofName s
  | .obj [(name, value)] => do
    let severity ← ofName name
    match value with
    | .null => return severity
    | v => throw (.wrongType v "unit")
  | .obj members => .error (.wrongValue (.obj members) "map with a single key")
  | v => .error (.wrongType v "string or map")

end Severity

structure Record where
  line : Option (Option Nat) := none
  path : Option (Option String) := none
  severity : Option Severity := none
  properties : Members := []

namespace Record

/-- Takes one more member. The three known members may come once only. -/
def take (r : Record) (key : String) (value : Json) : Typed Record :=
  if key = "line" then
    if r.line.isSome then throw (.repeated key)
    else return { r with line := some (← Json.asOption Json.asNat32 value) }
  else if key = "filePath" then
    if r.path.isSome then throw (.repeated key)
    else return { r with path := some (← Json.asOption Json.asText value) }
  else if key = "type" then
    if r.severity.isSome then throw (.repeated key)
    else return { r with severity := some (← Severity.ofJson value) }
  else return { r with properties := r.properties.set key value }

def message (r : Record) : Typed Message :=
  match r.severity with
  | none => .error (.missing "type")
  | some severity => .ok ⟨r.line.join, r.path.join, severity, r.properties⟩

end Record

namespace Message

def ofMembers (members : List (String × Json)) : Typed Message := do
  let record ← members.foldlM (fun (r : Record) (key, value) => r.take key value) {}
  record.message

def ofRecord : Json → Typed Message
  | .obj members => ofMembers members
  | v => .error (.wrongType v "struct LintMessage")

/-- The record of a message; what it does not have is left out. -/
def toRecord (m : Message) : Json :=
  .obj <|
    (m.line.map fun n => ("line", Json.ofNat n)).toList ++
    (m.path.map fun p => ("filePath", Json.str p)).toList ++
    ("type", .str m.severity.name) :: m.properties

end Message

namespace Messages

def ofRecords (records : List Json) : Typed Messages :=
  records.mapM Message.ofRecord

def toRecords (ms : Messages) : Json :=
  .arr (ms.map Message.toRecord)

end Messages

end PatchLint.Lint
