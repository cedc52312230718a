import PatchLint.Text.Basic
import PatchLint.Time.Instant

/-!
Reading instants.

`Instant.ofText?` takes a date, a `T` or a space, a time of day with seconds, and an
offset from UTC. Numbers may be short and may have blanks in front, and so may the marks
between them; the offset is `Z`, `UTC` or hours and minutes with a sign.
-/

namespace PatchLint.Time

/-- What a reader gives back: a value and the text after it. -/
abbrev Reader (α : Type) := List Char → Option (α × List Char)

def readNumber (most : Nat) : Reader Nat := fun s =>
  match (s.take most).takeWhile Char.isDigit with
  | [] => none
  | ds => some (Text.digitsValue ds, s.drop ds.length)

/-- A number of at most two digits between two bounds, after blanks. -/
def readField (least greatest : Nat) : Reader Nat := fun s => do
  let (n, rest) ← readNumber 2 (Text.trimStart s)
  if least ≤ n ∧ n ≤ greatest then some (n, rest) else none

def readMark (mark : Char) : List Char → Option (List Char) := fun s =>
  match Text.trimStart s with
  | c :: rest => if c = mark then some rest else none
  | [] => none

/-- A year: at most four digits, or a sign and any number of digits. -/
def readYear : Reader Int := fun s =>
  match Text.trimStart s with
  | '-' :: rest => (readNumber rest.length rest).map fun (n, rest) => (-(n : Int), rest)
  | '+' :: rest => (readNumber rest.length rest).map fun (n, rest) => ((n : Int), rest)
  | s => (readNumber 4 s).map fun (n, rest) => ((n : Int), rest)

def readDate : Reader Date := fun s => do
  let (year, s) ← readYear s
  let s ← readMark '-' s
  let (month, s) ← readField 1 12 s
  let s ← readMark '-' s
  let (day, s) ← readField 1 31 s
  return (← Date.ofNumbers? year month day, s)

/-- The nanoseconds of a fraction, if there is one. Digits after the ninth do not count. -/
def readFraction : Reader Nat
  | '.' :: s =>
    match s.takeWhile Char.isDigit with
    | [] => none
    | ds =>
      let first := ds.take 9
      some (Text.digitsValue first * Nat.pow 10 (9 - first.length), s.drop ds.length)
  | s => some (0, s)

/-- A time of day: its second and its nanoseconds. Second 60 is a leap second. -/
def readClock : Reader (Nat × Nat) := fun s => do
  let (hour, s) ← readField 0 23 s
  let s ← readMark ':' s
  let (minute, s) ← readField 0 59 s
  let s ← readMark ':' s
  let (second, s) ← readField 0 60 s
  let (nano, s) ← readFraction s
  let start := hour * 3600 + minute * 60
  return (if second = 60 then (start + 59, nano + secondNanos) else (start + second, nano), s)

def readPair : Reader Nat
  | a :: b :: rest =>
    if a.isDigit && b.isDigit then some (Text.digitsValue [a, b], rest) else none
  | _ => none

def readShift : Reader Int := fun s => do
  let (hours, s) ← readPair s
  let (minutes, s) ← readPair (s.dropWhile fun c => c == ':' || Text.isBlank c)
  let seconds := hours * 3600 + minutes * 60
  if minutes < 60 ∧ seconds < daySeconds then some ((seconds : Int), s) else none

def readOffset : Reader Int
  | 'Z' :: rest | 'z' :: rest => some (0, rest)
  | '+' :: rest => readShift rest
  | '-' :: rest | '\u2212' :: rest => (readShift rest).map fun (n, rest) => (-n, rest)
  | a :: b :: c :: rest =>
    if [a, b, c].map Char.toUpper = ['U', 'T', 'C'] then some (0, rest) else none
  | _ => none

def isDivider (c : Char) : Bool := c == 'T' || c == 't' || c == ' '

def Instant.ofText? (text : String) : Option Instant := do
  let (date, s) ← readDate text.toList
  match s with
  | [] => none
  | c :: s =>
    if isDivider c then
      let ((second, nano), s) ← readClock s
      let (offset, s) ← readOffset (Text.trimStart s)
      if s.all Text.isBlank then ofLocal? date second nano offset else none
    else none

end PatchLint.Time
