import PatchLint.Number.Binary64

/-!
The decimal text of a floating point number: the fewest digits that read back as the
same number and, of those, the ones nearest to it.

`Binary64.shortest` finds the digits, `Binary64.text` lays them out: positional for
decimal exponents from -5 to 15, with a fraction always, and scientific outside.
-/

namespace PatchLint

structure Decimal where
  digits : Nat
  exponent : Int
  deriving DecidableEq, Repr

namespace Decimal

def ratio (d : Decimal) : Nat × Nat :=
  if 0 ≤ d.exponent then (d.digits * Nat.pow 10 d.exponent.toNat, 1)
  else (d.digits, Nat.pow 10 (-d.exponent).toNat)

def digitCount (n : Nat) : Nat := (Nat.toDigits 10 n).length

end Decimal

namespace Binary64

/-- The decimal exponent of the first digit: the `k` with `10 ^ k ≤ |x| < 10 ^ (k + 1)`,
for a nonzero `x`. -/
def decimalExponent (x : Binary64) : Int :=
  let (n, d) := x.ratio
  if d ≤ n then (Decimal.digitCount (n / d) : Int) - 1
  else
    -- below one: the reciprocal, rounded up, counts the leading zeros
    -(Decimal.digitCount ((d + n - 1) / n - 1) : Int)

/-- The absolute distance from `x` to a decimal number, over a common denominator that
depends on the grid only. -/
def distance (x : Binary64) (d : Decimal) : Nat :=
  let (xn, xd) := x.ratio
  let (dn, dd) := d.ratio
  let a := xn * dd
  let b := dn * xd
  if a ≤ b then b - a else a - b

/-- The decimal number rounds to the absolute value of `x`. -/
def readsBack (x : Binary64) (d : Decimal) : Bool :=
  ofRatio d.ratio.1 d.ratio.2 == some { x with negative := false }

def neighbours (x : Binary64) (exponent : Int) : Decimal × Decimal :=
  let (n, d) := x.ratio
  let q := if 0 ≤ exponent then n / (d * Nat.pow 10 exponent.toNat)
    else n * Nat.pow 10 (-exponent).toNat / d
  (⟨q, exponent⟩, ⟨q + 1, exponent⟩)

/-- Of the neighbours on one grid that read back, the nearer one; of two equally near,
the even one. -/
def onGrid? (x : Binary64) (exponent : Int) : Option Decimal :=
  let (low, high) := x.neighbours exponent
  match x.readsBack low, x.readsBack high with
  | true, true =>
    let below := x.distance low
    let above := x.distance high
    if below < above then some low
    else if above < below then some high
    else if low.digits % 2 = 0 then some low else some high
  | true, false => some low
  | false, true => some high
  | false, false => none

/-- Tries grids of growing fineness; `count` more digits are allowed. -/
def shortestFrom (x : Binary64) : (count : Nat) → (exponent : Int) → Decimal
  | 0, exponent => (x.neighbours exponent).1
  | count + 1, exponent =>
    match x.onGrid? exponent with
    | some d => d
    | none => shortestFrom x count (exponent - 1)

/-- The fewest digits that read back as `|x|`. Seventeen always do. -/
def shortest (x : Binary64) : Decimal :=
  if x.isZero then ⟨0, 0⟩ else x.shortestFrom 17 x.decimalExponent

/-- The digits without trailing zeros, and the exponent of the first of them. -/
def significant (d : Decimal) : List Char × Int :=
  let ds := Nat.toDigits 10 d.digits
  let kept := (ds.reverse.dropWhile (· = '0')).reverse
  (if kept.isEmpty then ['0'] else kept, d.exponent + ds.length - 1)

def positional (digits : List Char) (whole : Int) : List Char :=
  if whole ≤ 0 then ['0', '.'] ++ List.replicate (-whole).toNat '0' ++ digits
  else
    let n := whole.toNat
    let fraction := digits.drop n
    digits.take n ++ List.replicate (n - digits.length) '0' ++ ['.'] ++
      (if fraction.isEmpty then ['0'] else fraction)

def scientific (digits : List Char) (exponent : Int) : List Char :=
  let sign := if exponent < 0 then '-' else '+'
  digits.take 1 ++ (if digits.length ≤ 1 then [] else '.' :: digits.drop 1) ++
    ['e', sign] ++ Nat.toDigits 10 exponent.natAbs

def text (x : Binary64) : String :=
  let (digits, exponent) := significant x.shortest
  let body :=
    if x.isZero then ['0', '.', '0']
    else if -5 ≤ exponent ∧ exponent ≤ 15 then positional digits (exponent + 1)
    else scientific digits exponent
  String.ofList (if x.negative then '-' :: body else body)

end Binary64

end PatchLint
