/-!
# The exact value of a floating-point number

A floating-point number is a sign and `m * 2 ^ q`, or an infinity, or no number at
all.  Everything that is said about such numbers here (their text, their integer
part, comparison with an integer) is said on `m` and `q`, in exact arithmetic.

## Main definitions

* `Exact` — the value.
* `Exact.ofFloat` — read off the bits.
* `Exact.truncate?` — the integer part.
-/

namespace CommandShell

/-- The value of a floating-point number. -/
inductive Exact where
  /-- Not a number. -/
  | nan
  /-- An infinity. -/
  | infinite (negative : Bool)
  /-- The number `m * 2 ^ q`, with its sign. -/
  | finite (negative : Bool) (m : Nat) (q : Int)
deriving DecidableEq, Repr

namespace Exact

/-- The value that the bits of a number denote. -/
def ofBits (bits : Nat) : Exact :=
  let negative := bits / Nat.pow 2 63 % 2 == 1
  let exponent : Nat := bits / Nat.pow 2 52 % Nat.pow 2 11
  let fraction : Nat := bits % Nat.pow 2 52
  if exponent = 0x7FF then
    if fraction = 0 then infinite negative else nan
  else if exponent = 0 then finite negative fraction (-1074)
  else finite negative (fraction + Nat.pow 2 52) (Int.ofNat exponent - 1075)

/-- The value of a floating-point number. -/
def ofFloat (x : Float) : Exact :=
  ofBits x.toBits.toNat

/-- The size of a finite number as a quotient of natural numbers. -/
def quotient (m : Nat) (q : Int) : Nat × Nat :=
  if 0 ≤ q then (m * Nat.pow 2 q.toNat, 1) else (m, Nat.pow 2 (-q).toNat)

/-- The integer part of a finite number: its fraction is dropped toward zero. -/
def truncate? : Exact → Option Int
  | finite negative m q =>
    let (num, den) := quotient m q
    some (if negative then -Int.ofNat (num / den) else Int.ofNat (num / den))
  | _ => none

/-- The number is the integer `n`. -/
def isInt (x : Exact) (n : Int) : Bool :=
  match x with
  | finite negative m q =>
    let (num, den) := quotient m q
    (if negative then -Int.ofNat num else Int.ofNat num) == n * Int.ofNat den
  | _ => false

/-- The number is zero, of either sign. -/
def isZero : Exact → Bool
  | finite _ m _ => m == 0
  | _ => false

/-- The number is greater than zero. -/
def isPositive : Exact → Bool
  | finite negative m _ => !negative && m != 0
  | infinite negative => !negative
  | nan => false

end Exact

end CommandShell
