import PatchLint.Yaml.Node

/-!
Values of a wanted type out of YAML nodes. Which scalar is a number or a truth value
depends on its text and on how it is written: quotes make it a text.
-/

namespace PatchLint.Yaml.Node

def text? : Node → Option String
  | .scalar _ _ text => some text
  | _ => none

/-- The text of a scalar that is neither quoted nor a block; a literal block counts if
it has the `tag` of what is wanted. -/
def bare? (tag : String) : Node → Option String
  | .scalar _ .plain text => some text
  | .scalar (some t) .literal text => if t = tag then some text else none
  | _ => none

def nullWords : List String := ["null", "Null", "NULL", "~"]

def bool? (n : Node) : Option Bool := do
  let s ← n.bare? "tag:yaml.org,2002:bool"
  if s = "true" ∨ s = "True" ∨ s = "TRUE" then some true
  else if s = "false" ∨ s = "False" ∨ s = "FALSE" then some false
  else none

def digits? (base : Nat) (ds : List Char) : Option Nat :=
  if ds.isEmpty then none
  else ds.foldlM (fun n d => do
    let v ← hexValue? d
    if v < base then some (n * base + v) else none) 0

/-- Decimal digits with a zero in front of another digit, which are no number. -/
def hasLeadingZero (ds : List Char) : Bool :=
  match ds with
  | '0' :: _ :: _ => ds.all Char.isDigit
  | _ => false

/-- The base that a number's first characters name, and its digits. -/
def based? : List Char → Option (Nat × List Char)
  | '0' :: 'x' :: ds => some (16, ds)
  | '0' :: 'o' :: ds => some (8, ds)
  | '0' :: 'b' :: ds => some (2, ds)
  | _ => none

/-- The value, up to `greatest`, of a natural number as YAML writes one: in decimal
without leading zeros, or in a base with `0x`, `0o` or `0b`; a plus sign may stand in
front. -/
def natural? (greatest : Nat) (s : List Char) : Option Nat :=
  let ds := match s with
    | '+' :: rest => rest
    | _ => s
  let value := match based? ds with
    | some (base, rest) => digits? base rest
    | none => if hasLeadingZero ds then none else digits? 10 ds
  value.filter (· ≤ greatest)

def nat32? (n : Node) : Option Nat := do
  let s ← n.bare? "tag:yaml.org,2002:int"
  natural? 0xFFFFFFFF s.toList

/-- The texts of a sequence of scalars; a value that is left out is an empty one. -/
def texts? : Node → Option (List String)
  | .sequence items => items.mapM text?
  | .scalar _ .plain "" => some []
  | _ => none

/-- A name: a scalar without a tag, or a tag in front of nothing or of a plain null. -/
def name? : Node → Option String
  | .scalar (some tag) style text =>
    match tag.toList with
    | '!' :: rest =>
      if style = .plain ∧ (text = "" ∨ nullWords.contains text) then
        some (if rest.isEmpty then "!" else String.ofList rest)
      else none
    | _ => some text
  | .scalar none _ text => some text
  | _ => none

end PatchLint.Yaml.Node
