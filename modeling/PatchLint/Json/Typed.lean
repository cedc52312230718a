import PatchLint.Json.Value
import PatchLint.Text.Basic

/-!
Values of a wanted type out of JSON values, and what to say when there is none.

A `Mismatch` is the cause; `Mismatch.message` its wording.
-/

namespace PatchLint.Json

inductive Mismatch where
  /-- A value of another kind. -/
  | wrongType (found : Json) (wanted : String)
  /-- A value of the right kind that is not allowed. -/
  | wrongValue (found : Json) (wanted : String)
  /-- A field that must be there is not. -/
  | missing (field : String)
  /-- A field is given twice. -/
  | repeated (field : String)
  /-- A name that is none of the allowed ones. -/
  | unknownName (name : String) (allowed : List String)
  /-- A list of fields that ends before its field number `count`. -/
  | tooShort (count : Nat) (wanted : String)
  /-- A list of `count` elements, which is more than there are fields. -/
  | tooLong (count : Nat)
  deriving Repr, Inhabited

namespace Mismatch

/-- A name between the marks that set it off. -/
def ticked (s : String) : String := s!"`{s}`"

def message : Mismatch → String
  | .wrongType found wanted => s!"invalid type: {found.describe}, expected {wanted}"
  | .wrongValue found wanted => s!"invalid value: {found.describe}, expected {wanted}"
  | .missing field => s!"missing field {ticked field}"
  | .repeated field => s!"duplicate field {ticked field}"
  | .unknownName name allowed =>
    let names := " or ".intercalate (allowed.map ticked)
    s!"unknown variant {ticked name}, expected {names}"
  | .tooShort count wanted => s!"invalid length {Text.decimal count}, expected {wanted}"
  | .tooLong count => s!"invalid length {Text.decimal count}, expected fewer elements in array"

end Mismatch

/-- A result, or the mismatch in the way. -/
abbrev Typed (α : Type) := Except Mismatch α

def asText : Json → Typed String
  | .str s => .ok s
  | v => .error (.wrongType v "a string")

def asBool : Json → Typed Bool
  | .bool b => .ok b
  | v => .error (.wrongType v "a boolean")

/-- An integer from 0 to `greatest`; `wanted` is the name of that range. -/
def asNat (greatest : Nat) (wanted : String) : Json → Typed Nat
  | .int n =>
    if 0 ≤ n ∧ n ≤ greatest then .ok n.toNat else .error (.wrongValue (.int n) wanted)
  | v => .error (.wrongType v wanted)

def nat32Max : Nat := 0xFFFFFFFF

def asNat32 : Json → Typed Nat := asNat nat32Max "u32"

def asNat8 : Json → Typed Nat := asNat 255 "u8"

/-- A value that null leaves out. -/
def asOption {α : Type} (read : Json → Typed α) : Json → Typed (Option α)
  | .null => .ok none
  | v => (read v).map some

end PatchLint.Json
