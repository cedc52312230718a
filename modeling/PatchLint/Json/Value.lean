import PatchLint.Number.Shortest
import PatchLint.Text.Quoted

/-!
JSON values and ordered members.

The members of an object keep the order in which their keys first appeared, and
`Members.set` replaces a value in place. `Json.describe` is how error messages name a
value that was found where another kind was wanted.
-/

namespace PatchLint

/-- A JSON value. Integers are those of 64 bits, signed or not; all other numbers are
floating point. -/
inductive Json where
  | null
  | bool (value : Bool)
  | int (value : Int)
  | float (value : Binary64)
  | str (value : String)
  | arr (items : List Json)
  | obj (members : List (String × Json))
  deriving Repr, Inhabited

/-- The members of an object in order of first appearance. -/
abbrev Members := List (String × Json)

namespace Members

/-- The value of the first member with this key. -/
def get? (key : String) : Members → Option Json
  | [] => none
  | (k, v) :: rest => if k = key then some v else get? key rest

/-- Gives `key` the value: in its old place if it has one, else at the end. -/
def set (key : String) (value : Json) : Members → Members
  | [] => [(key, value)]
  | (k, v) :: rest =>
    if k = key then (k, value) :: rest else (k, v) :: set key value rest

/-- The members with each key once, at its first place and with its last value. -/
def ofList (members : List (String × Json)) : Members :=
  members.foldl (fun acc m => acc.set m.1 m.2) []

end Members

namespace Json

def intText (n : Int) : List Char :=
  if n < 0 then '-' :: Nat.toDigits 10 n.natAbs else Nat.toDigits 10 n.natAbs

def get? (key : String) : Json → Option Json
  | .obj members => Members.get? key members
  | _ => none

def isArray : Json → Bool
  | .arr _ => true
  | _ => false

def string? : Json → Option String
  | .str s => some s
  | _ => none

def bool? : Json → Option Bool
  | .bool b => some b
  | _ => none

/-- The value as a natural number, if it is an integer that is not negative. -/
def nat? : Json → Option Nat
  | .int n => if 0 ≤ n then some n.toNat else none
  | _ => none

def ofOption {α : Type} (f : α → Json) : Option α → Json
  | none => .null
  | some a => f a

def ofNat (n : Nat) : Json := .int n

/-- How a message names the value: scalars with their content, the others by kind. -/
def describe : Json → String
  | .null => "null"
  | .bool true => "boolean `true`"
  | .bool false => "boolean `false`"
  | .int n => s!"integer `{String.ofList (intText n)}`"
  | .float x => s!"floating point `{x.text}`"
  | .str s => s!"string {Text.quoted s}"
  | .arr _ => "sequence"
  | .obj _ => "map"

end Json

end PatchLint
