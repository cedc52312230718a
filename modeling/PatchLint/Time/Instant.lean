import PatchLint.Text.Basic

/-!
Days of the calendar, and instants as a day and a time of day in UTC.

A leap second is the second before it with a billion nanoseconds or more. Instants are
written in the form of RFC 3339 with as many digits of the fraction as are needed, in
groups of three.
-/

namespace PatchLint.Time

/-- A day of the Gregorian calendar. Year 0 is the year before year 1. -/
structure Date where
  year : Int
  month : Nat
  day : Nat
  deriving DecidableEq, Repr, Inhabited

namespace Date

def isLeap (year : Int) : Bool :=
  year % 4 = 0 && (year % 100 ≠ 0 || year % 400 = 0)

def daysIn (year : Int) (month : Nat) : Nat :=
  match month with
  | 2 => if isLeap year then 29 else 28
  | 4 | 6 | 9 | 11 => 30
  | _ => 31

def firstYear : Int := -262143

def lastYear : Int := 262142

def ofNumbers? (year : Int) (month day : Nat) : Option Date :=
  if firstYear ≤ year ∧ year ≤ lastYear ∧ 1 ≤ month ∧ month ≤ 12 ∧
      1 ≤ day ∧ day ≤ daysIn year month then
    some ⟨year, month, day⟩
  else none

/-- The day after, unless the calendar ends. -/
def next? (d : Date) : Option Date :=
  if d.day < daysIn d.year d.month then some { d with day := d.day + 1 }
  else if d.month < 12 then some { d with month := d.month + 1, day := 1 }
  else if d.year < lastYear then some ⟨d.year + 1, 1, 1⟩
  else none

/-- The day before, unless the calendar starts. -/
def previous? (d : Date) : Option Date :=
  if 1 < d.day then some { d with day := d.day - 1 }
  else if 1 < d.month then
    some { d with month := d.month - 1, day := daysIn d.year (d.month - 1) }
  else if firstYear < d.year then some ⟨d.year - 1, 12, 31⟩
  else none

/-- The text of a year: four digits, and a sign if these do not do. -/
def yearText (year : Int) : String :=
  if 0 ≤ year ∧ year ≤ 9999 then Text.decimalOf 4 year.toNat
  else (if year < 0 then "-" else "+") ++ Text.decimalOf 4 year.natAbs

def text (d : Date) : String :=
  yearText d.year ++ "-" ++ Text.decimalOf 2 d.month ++ "-" ++ Text.decimalOf 2 d.day

end Date

def daySeconds : Nat := 86400

def secondNanos : Nat := 1000000000

structure Instant where
  date : Date
  /-- The seconds since midnight. -/
  second : Nat
  /-- The nanoseconds in that second; a billion or more in a leap second. -/
  nano : Nat
  deriving DecidableEq, Repr, Inhabited

namespace Instant

/-- The instant at a local time that is `offset` seconds ahead of UTC. -/
def ofLocal? (date : Date) (second : Nat) (nano : Nat) (offset : Int) : Option Instant :=
  let t := (second : Int) - offset
  if t < 0 then date.previous?.map fun d => ⟨d, (t + daySeconds).toNat, nano⟩
  else if t < daySeconds then some ⟨date, t.toNat, nano⟩
  else date.next?.map fun d => ⟨d, (t - daySeconds).toNat, nano⟩

/-- The numbers that order instants, the weightiest first. -/
def key (i : Instant) : List Int :=
  [i.date.year, i.date.month, i.date.day, i.second, i.nano]

def notAfter (a b : Instant) : Bool := !decide (b.key < a.key)

def latest? : List Instant → Option Instant
  | [] => none
  | i :: rest =>
    match latest? rest with
    | none => some i
    | some j => if i.notAfter j then some j else some i

/-- The fraction of a second, in the fewest groups of three digits. -/
def fractionText (nano : Nat) : String :=
  if nano = 0 then ""
  else if nano % 1000000 = 0 then "." ++ Text.decimalOf 3 (nano / 1000000)
  else if nano % 1000 = 0 then "." ++ Text.decimalOf 6 (nano / 1000)
  else "." ++ Text.decimalOf 9 nano

/-- Date and time of day, with a mark for UTC. -/
def textWith (utc : String) (i : Instant) : String :=
  let leap := i.nano / secondNanos
  i.date.text ++ "T" ++ Text.decimalOf 2 (i.second / 3600) ++ ":" ++
    Text.decimalOf 2 (i.second / 60 % 60) ++ ":" ++ Text.decimalOf 2 (i.second % 60 + leap) ++
    fractionText (i.nano % secondNanos) ++ utc

def text (i : Instant) : String := i.textWith "Z"

def longText (i : Instant) : String := i.textWith "+00:00"

end Instant

end PatchLint.Time
