import PatchLint.Json.Value
import PatchLint.Text.Basic

/-!
Reading JSON text.

Every reader takes the text that is left and gives back a value with what follows it.
`readValue depth` admits arrays and objects nested at most `depth` deep, so it recurses
on the depth; the elements of one array or object are read by `readList`, whose fuel is
the length of the text. `Json.read?` reads a whole text to the depth limit.

`skipValue` passes over a value that nobody looks at: any depth, any magnitude of a
number, and surrogate escapes in any order.
-/

namespace PatchLint.Json

/-- What a reader gives back: a value and the text after it. -/
abbrev Reader (α : Type) := List Char → Option (α × List Char)

/-- Arrays and objects may be nested this deep. -/
def depthLimit : Nat := 127

def isSpace (c : Char) : Bool :=
  c == ' ' || c == '\t' || c == '\n' || c == '\r'

/-- The text from its first token on. -/
def skipSpace (s : List Char) : List Char :=
  s.dropWhile isSpace

/-! ### Strings -/

def hexDigit? (c : Char) : Option Nat :=
  let n := c.toNat
  if 0x30 ≤ n ∧ n ≤ 0x39 then some (n - 0x30)
  else if 0x41 ≤ n ∧ n ≤ 0x46 then some (n - 0x37)
  else if 0x61 ≤ n ∧ n ≤ 0x66 then some (n - 0x57)
  else none

def hexQuad? (a b c d : Char) : Option Nat := do
  let a ← hexDigit? a
  let b ← hexDigit? b
  let c ← hexDigit? c
  let d ← hexDigit? d
  return ((a * 16 + b) * 16 + c) * 16 + d

def escape? (c : Char) : Option Char :=
  if c = '"' then some '"'
  else if c = '\\' then some '\\'
  else if c = '/' then some '/'
  else if c = 'b' then some '\x08'
  else if c = 'f' then some '\x0c'
  else if c = 'n' then some '\n'
  else if c = 'r' then some '\r'
  else if c = 't' then some '\t'
  else none

def isHighSurrogate (n : Nat) : Bool := 0xD800 ≤ n && n < 0xDC00

def isLowSurrogate (n : Nat) : Bool := 0xDC00 ≤ n && n < 0xE000

def ofSurrogates (high low : Nat) : Char :=
  Char.ofNat (0x10000 + (high - 0xD800) * 0x400 + (low - 0xDC00))

def consChar (c : Char) (r : Option (List Char × List Char)) : Option (List Char × List Char) :=
  r.map fun (s, rest) => (c :: s, rest)

/-- The content of a string after its opening quote, to the closing one. -/
def readString : Reader (List Char)
  | [] => none
  | '"' :: rest => some ([], rest)
  | '\\' :: 'u' :: a :: b :: c :: d :: rest =>
    match hexQuad? a b c d with
    | none => none
    | some high =>
      if isLowSurrogate high then none
      else if isHighSurrogate high then
        match rest with
        | '\\' :: 'u' :: a :: b :: c :: d :: rest =>
          match hexQuad? a b c d with
          | none => none
          | some low =>
            if isLowSurrogate low then consChar (ofSurrogates high low) (readString rest) else none
        | _ => none
      else consChar (Char.ofNat high) (readString rest)
  | '\\' :: c :: rest =>
    match escape? c with
    | none => none
    | some c => consChar c (readString rest)
  | c :: rest =>
    if c.toNat < 0x20 ∨ c = '\\' then none else consChar c (readString rest)

/-! ### Numbers -/

structure NumberText where
  negative : Bool
  whole : List Char
  fraction : Option (List Char)
  /-- The sign of the exponent, true for minus, and its digits. -/
  exponent : Option (Bool × List Char)

/-- The leading digits of the text, of which there must be one. -/
def readDigits : Reader (List Char) := fun s =>
  match s.takeWhile Char.isDigit with
  | [] => none
  | ds => some (ds, s.dropWhile Char.isDigit)

/-- The digits before the point: no zero in front of another digit. -/
def readWhole : Reader (List Char) := fun s =>
  match readDigits s with
  | some ('0' :: _ :: _, _) => none
  | r => r

def readFraction : Reader (Option (List Char))
  | '.' :: rest => (readDigits rest).map fun (ds, rest) => (some ds, rest)
  | s => some (none, s)

def readExponent : Reader (Option (Bool × List Char))
  | [] => some (none, [])
  | c :: rest =>
    if c = 'e' ∨ c = 'E' then
      let (minus, rest) :=
        match rest with
        | '+' :: rest => (false, rest)
        | '-' :: rest => (true, rest)
        | _ => (false, rest)
      (readDigits rest).map fun (ds, rest) => (some (minus, ds), rest)
    else some (none, c :: rest)

def readNumberText : Reader NumberText := fun s => do
  let (negative, s) :=
    match s with
    | '-' :: rest => (true, rest)
    | _ => (false, s)
  let (whole, s) ← readWhole s
  let (fraction, s) ← readFraction s
  let (exponent, s) ← readExponent s
  return (⟨negative, whole, fraction, exponent⟩, s)

/-- The greatest unsigned integer of 64 bits; significands do not exceed it. -/
def wordMax : Nat := 0xFFFFFFFFFFFFFFFF

/-- The greatest number that may stand behind the sign of a negative integer. -/
def negatedMax : Nat := 0x8000000000000000

/-- The greatest exponent that is read as a number. -/
def exponentMax : Nat := 0x7FFFFFFF

/-- Takes digits into a significand while it fits a word; gives also the digits that
are left from the first one that did not fit. -/
def accumulate (significand : Nat) : List Char → Nat × List Char
  | [] => (significand, [])
  | c :: rest =>
    let n := significand * 10 + (c.toNat - 48)
    if n ≤ wordMax then accumulate n rest else (significand, c :: rest)

namespace NumberText

/-- The significand, and the power of ten that the digits before the exponent give it.
Digits of the whole part that do not fit count as powers of ten; digits of the
fraction that do not fit are dropped. -/
def significand (t : NumberText) : Nat × Int :=
  let (n, excess) := accumulate 0 t.whole
  match t.fraction with
  | none => (n, excess.length)
  | some ds =>
    let (n, dropped) := accumulate n ds
    (n, excess.length - (ds.length - dropped.length : Nat))

/-- The floating point value, unless it is beyond the finite ones. -/
def float? (t : NumberText) : Option Binary64 :=
  let (n, shift) := t.significand
  match t.exponent with
  | none => Binary64.ofDecimal t.negative n shift
  | some (minus, ds) =>
    let e := Text.digitsValue ds
    if e ≤ exponentMax then Binary64.ofDecimal t.negative n (if minus then shift - e else shift + e)
    else if n = 0 ∨ minus then some (if t.negative then Binary64.zero.neg else Binary64.zero)
    else none

/-- The value: an integer if it is written as one, is not minus zero and fits 64 bits;
else floating point. -/
def value? (t : NumberText) : Option Json :=
  let n := Text.digitsValue t.whole
  match t.fraction, t.exponent with
  | none, none =>
    if t.negative then
      if 0 < n ∧ n ≤ negatedMax then some (.int (-n)) else t.float?.map .float
    else if n ≤ wordMax then some (.int n) else t.float?.map .float
  | _, _ => t.float?.map .float

end NumberText

/-! ### Values -/

/-- The rest of `word` must stand here. -/
def readWord (word : List Char) (value : Json) : Reader Json := fun s =>
  if word.isPrefixOf s then some (value, s.drop word.length) else none

def readLeaf : Reader Json
  | [] => none
  | '"' :: rest => (readString rest).map fun (s, rest) => (.str (String.ofList s), rest)
  | 'n' :: rest => readWord ['u', 'l', 'l'] .null rest
  | 't' :: rest => readWord ['r', 'u', 'e'] (.bool true) rest
  | 'f' :: rest => readWord ['a', 'l', 's', 'e'] (.bool false) rest
  | s => do
    let (t, rest) ← readNumberText s
    return (← t.value?, rest)

def readMore {α : Type} (item : Reader α) (close : Char) : (fuel : Nat) → Reader (List α)
  | 0, _ => none
  | fuel + 1, s =>
    match skipSpace s with
    | [] => none
    | c :: rest =>
      if c = close then some ([], rest)
      else if c = ',' then do
        let (x, rest) ← item rest
        let (xs, rest) ← readMore item close fuel rest
        return (x :: xs, rest)
      else none

def readList {α : Type} (item : Reader α) (close : Char) : Reader (List α) := fun s =>
  match skipSpace s with
  | [] => none
  | c :: rest =>
    if c = close then some ([], rest)
    else do
      let (x, rest) ← item (c :: rest)
      let (xs, rest) ← readMore item close (rest.length + 1) rest
      return (x :: xs, rest)

def readKey : Reader String := fun s =>
  match skipSpace s with
  | '"' :: rest => do
    let (key, rest) ← readString rest
    match skipSpace rest with
    | ':' :: rest => return (String.ofList key, rest)
    | _ => none
  | _ => none

def readMember {α : Type} (value : Reader α) : Reader (String × α) := fun s => do
  let (key, rest) ← readKey s
  let (v, rest) ← value rest
  return ((key, v), rest)

/-- A value with arrays and objects nested at most `depth` deep. -/
def readValue : (depth : Nat) → Reader Json
  | 0, s => readLeaf (skipSpace s)
  | depth + 1, s =>
    match skipSpace s with
    | '[' :: rest =>
      (readList (readValue depth) ']' rest).map fun (items, rest) => (.arr items, rest)
    | '{' :: rest =>
      (readList (readMember (readValue depth)) '}' rest).map fun (members, rest) =>
        (.obj (Members.ofList members), rest)
    | s => readLeaf s

/-- The value of a whole text, with nothing but white space around it. -/
def finish {α : Type} (r : Option (α × List Char)) : Option α := do
  let (v, rest) ← r
  if (skipSpace rest).isEmpty then some v else none

def read? (s : String) : Option Json :=
  finish (readValue depthLimit s.toList)

/-! ### Values that are not looked at -/

def skipString : Reader Unit
  | [] => none
  | '"' :: rest => some ((), rest)
  | '\\' :: 'u' :: a :: b :: c :: d :: rest =>
    if (hexQuad? a b c d).isSome then skipString rest else none
  | '\\' :: c :: rest => if (escape? c).isSome then skipString rest else none
  | c :: rest => if c.toNat < 0x20 ∨ c = '\\' then none else skipString rest

def skipKey : Reader Unit := fun s =>
  match skipSpace s with
  | '"' :: rest => do
    let (_, rest) ← skipString rest
    match skipSpace rest with
    | ':' :: rest => return ((), rest)
    | _ => none
  | _ => none

def skipLeaf : Reader Unit
  | [] => none
  | '"' :: rest => skipString rest
  | 'n' :: rest => (readWord ['u', 'l', 'l'] .null rest).map fun (_, rest) => ((), rest)
  | 't' :: rest => (readWord ['r', 'u', 'e'] .null rest).map fun (_, rest) => ((), rest)
  | 'f' :: rest => (readWord ['a', 'l', 's', 'e'] .null rest).map fun (_, rest) => ((), rest)
  | s => (readNumberText s).map fun (_, rest) => ((), rest)

def skipNested : (depth : Nat) → Reader Unit
  | 0, s => skipLeaf (skipSpace s)
  | depth + 1, s =>
    match skipSpace s with
    | '[' :: rest => (readList (skipNested depth) ']' rest).map fun (_, rest) => ((), rest)
    | '{' :: rest =>
      let member : Reader Unit := fun s => do
        let (_, rest) ← skipKey s
        skipNested depth rest
      (readList member '}' rest).map fun (_, rest) => ((), rest)
    | s => skipLeaf s

/-- Passes over a value; a text cannot be nested deeper than it is long. -/
def skipValue : Reader Unit := fun s => skipNested s.length s

end PatchLint.Json
