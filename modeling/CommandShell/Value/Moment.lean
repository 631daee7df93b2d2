/-!
# Dates and times

A settings file may hold dates and times.  The shell keeps them, compares them with
listed choices, and shows them in the form of the ISO standard.

## Main definitions

* `Moment` — a date, a time of day, or both, possibly with an offset.
* `Moment.same` — equality; with offsets it is that of the instants.
* `Moment.iso` — its text.
-/

namespace CommandShell

/-- A day of the calendar. -/
structure Date where
  /-- The year, of four digits. -/
  year : Nat
  /-- The month, from 1. -/
  month : Nat
  /-- The day of the month, from 1. -/
  day : Nat
deriving DecidableEq, Repr

/-- A time of day. -/
structure Clock where
  /-- The hour, to 23. -/
  hour : Nat
  /-- The minute, to 59. -/
  minute : Nat
  /-- The second, to 59. -/
  second : Nat
  /-- The millionths of a second. -/
  micro : Nat
deriving DecidableEq, Repr

/-- A date, a time of day, or both; the two together may tell their offset from
universal time in minutes. -/
inductive Moment where
  /-- A date alone. -/
  | date (d : Date)
  /-- A time of day alone. -/
  | clock (t : Clock)
  /-- A date and a time of day. -/
  | both (d : Date) (t : Clock) (offset : Option Int)
deriving DecidableEq, Repr

/-- A number in base ten, padded with zeros to `width` digits. -/
def padded (width n : Nat) : String :=
  let digits := Nat.toDigits 10 n
  String.ofList (List.replicate (width - digits.length) '0' ++ digits)

/-- The year is a leap year. -/
def Date.isLeap (year : Nat) : Bool :=
  year % 4 == 0 && (year % 100 != 0 || year % 400 == 0)

/-- The number of days of a month. -/
def Date.daysIn (year month : Nat) : Nat :=
  if month = 2 then (if isLeap year then 29 else 28)
  else if month = 4 ∨ month = 6 ∨ month = 9 ∨ month = 11 then 30
  else 31

/-- The date exists in the calendar, which starts with the year 1. -/
def Date.isValid (d : Date) : Bool :=
  1 ≤ d.year && 1 ≤ d.month && d.month ≤ 12 && 1 ≤ d.day && d.day ≤ daysIn d.year d.month

/-- The number of days from the first of the calendar to a date, this one included. -/
def Date.ordinal (d : Date) : Nat :=
  let years := d.year - 1
  let before := years * 365 + years / 4 - years / 100 + years / 400
  (List.range (d.month - 1)).foldl (fun days k => days + daysIn d.year (k + 1)) before + d.day

/-- The instant that a date and a time of day with an offset mean, in millionths of a second
of universal time. -/
def Moment.instant? : Moment → Option Int
  | both d t (some offset) =>
    let minutes : Int := (d.ordinal * 24 + t.hour) * 60 + t.minute - offset
    some ((minutes * 60 + t.second) * 1000000 + t.micro)
  | _ => none

/-- Equality of moments.  Two with an offset are the same if they mean the same instant; one with
an offset is never the same as one without. -/
def Moment.same (m n : Moment) : Bool :=
  match m.instant?, n.instant? with
  | some a, some b => a == b
  | none, none => m == n
  | _, _ => false

/-- A date as text. -/
def Date.iso (d : Date) : String :=
  padded 4 d.year ++ "-" ++ padded 2 d.month ++ "-" ++ padded 2 d.day

/-- A time of day as text; millionths are shown only if there are any. -/
def Clock.iso (t : Clock) : String :=
  padded 2 t.hour ++ ":" ++ padded 2 t.minute ++ ":" ++ padded 2 t.second
    ++ (if t.micro = 0 then "" else "." ++ padded 6 t.micro)

/-- An offset in minutes as text. -/
def offsetText (minutes : Int) : String :=
  (if minutes < 0 then "-" else "+") ++ padded 2 (minutes.natAbs / 60) ++ ":"
    ++ padded 2 (minutes.natAbs % 60)

/-- A moment as text, date and time joined by `joint`. -/
def Moment.textWith (joint : String) : Moment → String
  | date d => d.iso
  | clock t => t.iso
  | both d t offset => d.iso ++ joint ++ t.iso ++ (offset.map offsetText).getD ""

/-- A moment in the form of the ISO standard. -/
def Moment.iso (m : Moment) : String :=
  m.textWith "T"

end CommandShell
