import CommandShell.Document.Scan
import CommandShell.Value

/-!
# Numbers, dates and times of a settings file

These start with a digit or a sign.  A date is tried first, then a time of day, then
a number; each takes as much of the text as it can.
-/

namespace CommandShell.Document

/-! ## Dates and times -/

/-- Reads exactly `width` digits. -/
def fixedDigits? (width : Nat) (cs : List Char) : Option (Nat × List Char) :=
  let digits := cs.take width
  if digits.length = width ∧ digits.all Char.isDigit then
    some (Decimal.natOf digits, cs.drop width)
  else none

/-- Reads two digits of a number within bounds. -/
def pair? (least most : Nat) (cs : List Char) : Option (Nat × List Char) :=
  (fixedDigits? 2 cs).filter fun found => least ≤ found.1 ∧ found.1 ≤ most

/-- Reads one given character. -/
def mark? (c : Char) : List Char → Option (List Char)
  | d :: rest => if d = c then some rest else none
  | [] => none

/-- Reads the fraction of a second, of which six digits count. -/
def micros (cs : List Char) : Nat × List Char :=
  match cs with
  | '.' :: rest =>
    let digits := rest.takeWhile Char.isDigit
    if digits.isEmpty then (0, cs)
    else
      let shown := digits.take 6
      (Decimal.natOf (shown ++ List.replicate (6 - shown.length) '0'),
        rest.dropWhile Char.isDigit)
  | _ => (0, cs)

/-- Reads a time of day. -/
def clock? (cs : List Char) : Option (Clock × List Char) := do
  let (hour, cs) ← pair? 0 23 cs
  let cs ← mark? ':' cs
  let (minute, cs) ← pair? 0 59 cs
  let cs ← mark? ':' cs
  let (second, cs) ← pair? 0 59 cs
  let (micro, cs) := micros cs
  return (⟨hour, minute, second, micro⟩, cs)

/-- Reads an offset of hours and minutes. -/
def hoursAndMinutes? (cs : List Char) : Option (Nat × List Char) := do
  let (hour, cs) ← pair? 0 23 cs
  let cs ← mark? ':' cs
  let (minute, cs) ← pair? 0 59 cs
  return (60 * hour + minute, cs)

/-- Reads an offset from universal time, if one is there. -/
def offset (cs : List Char) : Option Int × List Char :=
  match cs with
  | c :: rest =>
    if c = 'Z' ∨ c = 'z' then (some 0, rest)
    else if c = '+' ∨ c = '-' then
      match hoursAndMinutes? rest with
      | some (minutes, after) => (some (if c = '-' then -Int.ofNat minutes else minutes), after)
      | none => (none, cs)
    else (none, cs)
  | [] => (none, cs)

/-- Reads a date. -/
def date? (cs : List Char) : Option (Date × List Char) := do
  let (year, cs) ← fixedDigits? 4 cs
  let cs ← mark? '-' cs
  let (month, cs) ← pair? 1 12 cs
  let cs ← mark? '-' cs
  let (day, cs) ← pair? 1 31 cs
  return (⟨year, month, day⟩, cs)

/-- Reads the time of day that follows a date, if one does. -/
def clockAfterDate? : List Char → Option (Clock × List Char)
  | c :: rest => if c = 'T' ∨ c = 't' ∨ c = ' ' then clock? rest else none
  | [] => none

/-- Reads a date or a time, if the text starts with one. -/
def moment? (cs : List Char) : Option (Reading Moment) :=
  match date? cs with
  | some (date, after) =>
    if !date.isValid then some malformed
    else
      match clockAfterDate? after with
      | some (clock, rest) =>
        let (minutes, rest) := offset rest
        some (.ok (.both date clock minutes, rest))
      | none => some (.ok (.date date, after))
  | none => (clock? cs).map fun found => .ok (.clock found.1, found.2)

/-! ## Numbers -/

/-- Reads digits of a kind after one that was read, with single underscores between. -/
def moreDigits (isDigit : Char → Bool) : List Char → List Char × List Char
  | [] => ([], [])
  | [c] => if isDigit c then ([c], []) else ([], [c])
  | c :: d :: rest =>
    if isDigit c then
      let (found, after) := moreDigits isDigit (d :: rest)
      (c :: found, after)
    else if c = '_' ∧ isDigit d then
      let (found, after) := moreDigits isDigit rest
      (d :: found, after)
    else ([], c :: d :: rest)

/-- Reads digits of a kind, with single underscores between; the underscores are left
out of what is found. -/
def digits? (isDigit : Char → Bool) : List Char → Option (List Char × List Char)
  | [] => none
  | c :: rest =>
    if isDigit c then
      let (found, after) := moreDigits isDigit rest
      some (c :: found, after)
    else none

/-- An ASCII digit in a base. -/
def isDigitIn (base : Nat) (c : Char) : Bool :=
  c.toNat < 128 && (Numeral.digitIn? base c).isSome

/-- Reads an integer with a base mark. -/
def marked? : List Char → Option (Nat × List Char)
  | '0' :: mark :: rest =>
    let base := if mark = 'x' then 16 else if mark = 'o' then 8 else if mark = 'b' then 2 else 0
    (digits? (isDigitIn base) rest).map fun found =>
      (Numeral.valueOf base (found.1.filterMap (Numeral.digitIn? base)), found.2)
  | _ => none

/-- Reads the digits before the point: zero, or digits that start with another. -/
def whole? : List Char → Option (List Char × List Char)
  | '0' :: rest => some (['0'], rest)
  | cs => digits? Char.isDigit cs

/-- Reads the point and the digits after it, if both are there. -/
def fraction (cs : List Char) : List Char × List Char :=
  match cs with
  | '.' :: rest =>
    match digits? Char.isDigit rest with
    | some (found, after) => ('.' :: found, after)
    | none => ([], cs)
  | _ => ([], cs)

/-- Reads the sign of a number, if one is there. -/
def sign (cs : List Char) : List Char × List Char :=
  match cs with
  | c :: rest => if c = '+' ∨ c = '-' then ([c], rest) else ([], cs)
  | [] => ([], [])

/-- Reads the power of ten, if one is there. -/
def power (cs : List Char) : List Char × List Char :=
  match cs with
  | c :: rest =>
    if c = 'e' ∨ c = 'E' then
      let (signs, body) := sign rest
      match digits? Char.isDigit body with
      | some (found, after) => ('e' :: signs ++ found, after)
      | none => ([], cs)
    else ([], cs)
  | [] => ([], [])

/-- Reads a decimal number; one with a fraction or a power of ten is a floating-point
number. -/
def decimal? (cs : List Char) : Option (Reading Value) := do
  let (signs, body) := sign cs
  let (whole, rest) ← whole? body
  let (places, rest) := fraction rest
  let (exponent, rest) := power rest
  if places.isEmpty && exponent.isEmpty then
    if Numeral.digitLimit < whole.length then return .error (.tooManyDigits whole.length)
    else
      let n := Int.ofNat (Decimal.natOf whole)
      return .ok (.int (if signs = ['-'] then -n else n), rest)
  else
    let x ← Decimal.ofText? (String.ofList (signs ++ whole ++ places ++ exponent))
    return .ok (.float x, rest)

/-- Reads a number, if the text starts with one. -/
def number? (cs : List Char) : Option (Reading Value) :=
  match marked? cs with
  | some (n, rest) => some (.ok (.int n, rest))
  | none => decimal? cs

/-- The floating-point numbers that are written as words. -/
def namedNumbers : List String := ["inf", "nan", "-inf", "+inf", "-nan", "+nan"]

/-- Reads a word that stands for a floating-point number. -/
def namedNumber? (cs : List Char) : Option (Value × List Char) := do
  let word ← namedNumbers.find? fun word => word.toList.isPrefixOf cs
  let x ← Decimal.ofText? word
  return (.float x, cs.drop word.length)

end CommandShell.Document
