import CommandShell.Decimal.Exact

/-!
# The fewest digits that read back

A floating-point number is written with the fewest significant digits that still
read back as the same number; of several such decimals it takes the nearest.

The reals that round to `m * 2 ^ q` form an interval.  Multiplied by four, its
middle is `4 * m` and its ends are `4 * m - 2` (or `4 * m - 1`, where the grid
below is twice as fine) and `4 * m + 2`; the ends belong to it exactly if `m` is
even.  For one digit, two digits and so on, the two neighbours of the value on that
decimal grid are tested in exact arithmetic.  Seventeen digits always suffice.
-/

namespace CommandShell

/-- The number `coefficient * 10 ^ exponent`. -/
structure Decimal where
  /-- The significant digits, as one number. -/
  coefficient : Nat
  /-- The power of ten that they are multiplied by. -/
  exponent : Int
deriving DecidableEq, Repr

namespace Decimal

/-- The quotient `num / den` times a power of ten, again as a quotient. -/
def scale (num den : Nat) (power : Int) : Nat × Nat :=
  if 0 ≤ power then (num * Nat.pow 10 power.toNat, den)
  else (num, den * Nat.pow 10 (-power).toNat)

/-- The greatest `p ≤ start` with `10 ^ p * den ≤ num`, found within `steps` tries. -/
def magnitudeFrom (num den : Nat) : Nat → Int → Int
  | 0, start => start
  | steps + 1, start =>
    let (n, d) := scale num den (-start)
    if d ≤ n then start else magnitudeFrom num den steps (start - 1)

/-- The power of ten of the leading digit of `num / den`. -/
def magnitude (num den : Nat) : Int :=
  magnitudeFrom num den 700 ((Nat.toDigits 10 (num / den)).length - 1)

/-- The interval that rounds to a number, scaled so that its decimals are integers:
the value, the two ends, and their common denominator. -/
structure Window where
  /-- The value. -/
  middle : Nat
  /-- The lower end. -/
  low : Nat
  /-- The upper end. -/
  high : Nat
  /-- The denominator of the three. -/
  den : Nat
  /-- The ends belong to the interval. -/
  closed : Bool

/-- The window of `m * 2 ^ q` on the decimal grid of step `10 ^ k`. -/
def Window.of (m : Nat) (q k : Int) : Window :=
  let below := if m = Nat.pow 2 52 ∧ -1074 < q then 1 else 2
  let on (n : Nat) : Nat × Nat :=
    let (num, den) := Exact.quotient n (q - 2)
    scale num den (-k)
  ⟨(on (4 * m)).1, (on (4 * m - below)).1, (on (4 * m + 2)).1, (on (4 * m)).2, m % 2 == 0⟩

/-- The grid point `d` lies in the window. -/
def Window.contains (w : Window) (d : Nat) : Bool :=
  if w.closed then w.low ≤ d * w.den && d * w.den ≤ w.high
  else w.low < d * w.den && d * w.den < w.high

/-- The grid point in the window that is nearest to its middle, an exact tie going to
the even one. -/
def Window.nearest? (w : Window) : Option Nat :=
  let floor := w.middle / w.den
  let toFloor := w.middle - floor * w.den
  let toNext := (floor + 1) * w.den - w.middle
  match w.contains floor, w.contains (floor + 1) with
  | true, true =>
    if toFloor < toNext then some floor
    else if toNext < toFloor then some (floor + 1)
    else if floor % 2 = 0 then some floor else some (floor + 1)
  | true, false => some floor
  | false, true => some (floor + 1)
  | false, false => none

/-- The decimal without the zeros that end its coefficient, of which there are fewer
than `steps`. -/
def dropZeros : Nat → Decimal → Decimal
  | 0, d => d
  | steps + 1, d =>
    if d.coefficient ≠ 0 ∧ d.coefficient % 10 = 0 then
      dropZeros steps ⟨d.coefficient / 10, d.exponent + 1⟩
    else d

/-- Tries `digits` significant digits, then one more, and so on for `tries` rounds. -/
def search (m : Nat) (q p : Int) : Nat → Nat → Decimal
  | 0, digits => ⟨(Window.of m q (p - digits + 1)).middle, p - digits + 1⟩
  | tries + 1, digits =>
    let k := p - digits + 1
    match (Window.of m q k).nearest? with
    | some d => ⟨d, k⟩
    | none => search m q p tries (digits + 1)

/-- The shortest decimal that reads back as `m * 2 ^ q`; zero stays zero. -/
def shortest (m : Nat) (q : Int) : Decimal :=
  if m = 0 then ⟨0, 0⟩
  else
    let (num, den) := Exact.quotient m q
    dropZeros 20 (search m q (magnitude num den) 17 1)

end Decimal

end CommandShell
