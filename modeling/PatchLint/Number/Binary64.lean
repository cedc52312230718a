/-!
Finite floating point numbers of 64 bits, as exact values.

A number is a sign, a mantissa and a power of two. `ofRatio` rounds a quotient of
natural numbers to the nearest representable value, a half to the even mantissa, and
answers `none` beyond the largest finite value. Products and quotients are rounded
from their exact values, so each operation rounds once.
-/

namespace PatchLint

/-- The finite value `± mantissa * 2 ^ exponent`. Values built by `ofRatio` have a
mantissa of exactly 53 bits, or less at the least exponent. -/
structure Binary64 where
  negative : Bool
  mantissa : Nat
  exponent : Int
  deriving DecidableEq, Repr, Inhabited

namespace Binary64

/-- The least exponent, at which mantissas may be short. -/
def leastExponent : Int := -1074

def greatestExponent : Int := 971

def mantissaLimit : Nat := Nat.pow 2 53

def zero : Binary64 := ⟨false, 0, leastExponent⟩

def isZero (x : Binary64) : Bool := x.mantissa == 0

def neg (x : Binary64) : Binary64 := { x with negative := !x.negative }

/-- `num / den` rounded to a natural number, a half to the even one. -/
def roundDiv (num den : Nat) : Nat :=
  let q := num / den
  let r := num % den
  if 2 * r < den then q
  else if den < 2 * r then q + 1
  else if q % 2 = 0 then q
  else q + 1

/-- `num / den / 2 ^ e` as a quotient of natural numbers. -/
def scaled (num den : Nat) (e : Int) : Nat × Nat :=
  if 0 ≤ e then (num, den * Nat.pow 2 e.toNat) else (num * Nat.pow 2 (-e).toNat, den)

/-- The exponent at which `num / den` has a quotient of 53 bits, or the least one. -/
def exponentFor (num den : Nat) : Int :=
  let guess := (num.log2 : Int) - (den.log2 : Int) - 52
  let (n, d) := scaled num den guess
  max leastExponent (if n < d * Nat.pow 2 52 then guess - 1 else guess)

/-- The positive value nearest to `num / den`; none when that is not finite. -/
def ofRatio (num den : Nat) : Option Binary64 :=
  if num = 0 then some zero
  else
    let e := exponentFor num den
    let (n, d) := scaled num den e
    let m := roundDiv n d
    let x : Binary64 := if m = mantissaLimit then ⟨false, Nat.pow 2 52, e + 1⟩ else ⟨false, m, e⟩
    if x.exponent ≤ greatestExponent then some x else none

def ratio (x : Binary64) : Nat × Nat :=
  if 0 ≤ x.exponent then (x.mantissa * Nat.pow 2 x.exponent.toNat, 1)
  else (x.mantissa, Nat.pow 2 (-x.exponent).toNat)

/-- The product of the absolute values, rounded; none when it is not finite. -/
def mul (x y : Binary64) : Option Binary64 :=
  ofRatio (x.ratio.1 * y.ratio.1) (x.ratio.2 * y.ratio.2)

/-- The quotient of the absolute values, rounded, for a nonzero divisor; none when it
is not finite. -/
def div (x y : Binary64) : Option Binary64 :=
  ofRatio (x.ratio.1 * y.ratio.2) (x.ratio.2 * y.ratio.1)

def powerOfTen (k : Nat) : Option Binary64 :=
  ofRatio (Nat.pow 10 k) 1

def greatestPower : Nat := 308

/-- `x / 10 ^ k`, taking off the greatest power first while `k` is beyond it. -/
def divPowerOfTen (x : Binary64) (k : Nat) : Option Binary64 :=
  if k ≤ greatestPower then (powerOfTen k).bind x.div
  else if x.isZero then some x
  else do
    let y ← (powerOfTen greatestPower).bind x.div
    divPowerOfTen y (k - greatestPower)
termination_by k
decreasing_by simp [greatestPower] at *; omega

/-- The value of `significand * 10 ^ exponent`, where the significand, the power of
ten and their product or quotient are each rounded; none when it is not finite. -/
def ofDecimal (negative : Bool) (significand : Nat) (exponent : Int) : Option Binary64 := do
  let s ← ofRatio significand 1
  let x ←
    if 0 ≤ exponent then
      if exponent.toNat ≤ greatestPower then (powerOfTen exponent.toNat).bind s.mul
      else if s.isZero then some s else none
    else s.divPowerOfTen (-exponent).toNat
  return if negative then x.neg else x

end Binary64

end PatchLint
