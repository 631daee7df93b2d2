import CommandShell.Text.Blank
import CommandShell.Text.Digit

/-!
# Integers as users write them

A level, a limit or a setting may be given as a text that reads as an integer.
The digits may be those of any script, single underscores may stand between them,
and blanks may surround the whole.  Where base marks are admitted, `0x`, `0o` and
`0b` choose another base, and a decimal numeral other than zero must not start
with a zero.
-/

namespace CommandShell.Numeral

/-- Longer decimal numerals are refused rather than converted. -/
def digitLimit : Nat := 4300

/-- The blanks that may surround a numeral: the ASCII ones that end a word, and all
white space above ASCII. -/
def isMargin (c : Char) : Bool :=
  if c.toNat < 128 then c.toNat == 32 || (9 ≤ c.toNat && c.toNat ≤ 13) else Text.isBlank c

/-- The value of a digit in bases up to sixteen. -/
def digitIn? (base : Nat) (c : Char) : Option Nat :=
  let value :=
    match Text.digit? c with
    | some d => some d
    | none =>
      if 'a' ≤ c ∧ c ≤ 'z' then some (c.toNat - 'a'.toNat + 10)
      else if 'A' ≤ c ∧ c ≤ 'Z' then some (c.toNat - 'A'.toNat + 10)
      else none
  value.filter (· < base)

/-- The digits of a numeral, most significant first, with single underscores between
neighbours; refuses every other character and an empty numeral. -/
def digits? (base : Nat) : List Char → Option (List Nat)
  | [] => none
  | [c] => (digitIn? base c).map ([·])
  | c :: '_' :: rest => do
    let d ← digitIn? base c
    let ds ← digits? base rest
    pure (d :: ds)
  | c :: rest => do
    let d ← digitIn? base c
    let ds ← digits? base rest
    pure (d :: ds)

/-- The number that digits denote in a base. -/
def valueOf (base : Nat) (digits : List Nat) : Nat :=
  digits.foldl (fun n d => n * base + d) 0

/-- A natural number in base ten, of at most `digitLimit` digits. -/
def natDecimal? (cs : List Char) : Option Nat := do
  let ds ← digits? 10 cs
  if ds.length ≤ digitLimit then some (valueOf 10 ds) else none

/-- A natural number after a base mark; one underscore may part the two. -/
def natAfterMark? (base : Nat) (cs : List Char) : Option Nat :=
  let body :=
    match cs with
    | '_' :: rest => rest
    | _ => cs
  (digits? base body).map (valueOf base)

/-- A natural number whose base its mark tells; without one it is decimal, and starts
with a zero only if it is zero. -/
def natMarked? (cs : List Char) : Option Nat :=
  match cs with
  | [] => none
  | c :: rest =>
    if Text.digit? c = some 0 then
      match rest with
      | [] => some 0
      | mark :: body =>
        if mark = 'x' ∨ mark = 'X' then natAfterMark? 16 body
        else if mark = 'o' ∨ mark = 'O' then natAfterMark? 8 body
        else if mark = 'b' ∨ mark = 'B' then natAfterMark? 2 body
        else (natDecimal? cs).filter (· == 0)
    else natDecimal? cs

/-- An integer: an optional sign, then a natural number, with margins around. -/
def signed? (nat? : List Char → Option Nat) (s : String) : Option Int :=
  match Text.dropRightWhile isMargin (s.toList.dropWhile isMargin) with
  | '+' :: rest => (nat? rest).map Int.ofNat
  | '-' :: rest => (nat? rest).map fun n => -Int.ofNat n
  | cs => (nat? cs).map Int.ofNat

/-- The integer that a text denotes in base ten. -/
def decimal? (s : String) : Option Int :=
  signed? natDecimal? s

/-- The integer that a text denotes, in the base that its mark tells. -/
def marked? (s : String) : Option Int :=
  signed? natMarked? s

end CommandShell.Numeral
