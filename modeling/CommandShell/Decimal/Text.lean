import CommandShell.Decimal.Shortest

/-!
# Floating-point numbers as text

Numbers are shown with the fewest digits that read back.  Sizes from `1e-4` up to,
but not including, `1e16` are written positionally and keep at least one digit
after the point; others have an exponent of at least two digits with its sign.
-/

namespace CommandShell.Decimal

/-- The digits of a natural number in base ten. -/
def digitsOf (n : Nat) : List Char :=
  Nat.toDigits 10 n

/-- Digits with a point after the first `places`, which are not all of them or are
followed by one zero. -/
def positional (digits : List Char) (power : Int) : List Char :=
  if power < 0 then
    ['0', '.'] ++ List.replicate (-power - 1).toNat '0' ++ digits
  else
    let whole := power.toNat + 1
    if digits.length ≤ whole then
      digits ++ List.replicate (whole - digits.length) '0' ++ ['.', '0']
    else digits.take whole ++ ['.'] ++ digits.drop whole

/-- Digits with a point after the first, if others follow, and an exponent. -/
def scientific (digits : List Char) (power : Int) : List Char :=
  let size := digitsOf power.natAbs
  digits.take 1 ++ (if digits.length ≤ 1 then [] else '.' :: digits.drop 1)
    ++ ['e', if power < 0 then '-' else '+']
    ++ (if size.length < 2 then '0' :: size else size)

/-- A positive decimal as text. -/
def unsigned (d : Decimal) : List Char :=
  let digits := digitsOf d.coefficient
  let power := d.exponent + digits.length - 1
  if -4 ≤ power ∧ power < 16 then positional digits power else scientific digits power

/-- A floating-point number as text. -/
def text (x : Float) : String :=
  match Exact.ofFloat x with
  | .nan => "nan"
  | .infinite negative => if negative then "-inf" else "inf"
  | .finite negative m q =>
    let digits := unsigned (shortest m q)
    String.ofList (if negative then '-' :: digits else digits)

/-- The floating-point number nearest to `coefficient * 10 ^ exponent`.  Sizes that
are certainly beyond the format are not computed. -/
def nearest (coefficient : Nat) (exponent : Int) : Float :=
  let size := exponent + (digitsOf coefficient).length
  if coefficient = 0 ∨ size < -400 then 0.0
  else if 400 < size then 1.0 / 0.0
  else Float.ofScientific coefficient (exponent < 0) exponent.natAbs

/-- The digits that a text starts with, and the rest. -/
def spanDigits (cs : List Char) : List Char × List Char :=
  (cs.takeWhile Char.isDigit, cs.dropWhile Char.isDigit)

/-- The natural number that ASCII digits denote. -/
def natOf (digits : List Char) : Nat :=
  digits.foldl (fun n c => n * 10 + (c.toNat - 48)) 0

/-- The exponent part of a number: nothing, or a mark, an optional sign and digits. -/
def exponent? : List Char → Option Int
  | [] => some 0
  | mark :: rest =>
    if mark = 'e' ∨ mark = 'E' then
      let (negative, body) :=
        match rest with
        | '-' :: r => (true, r)
        | '+' :: r => (false, r)
        | r => (false, r)
      if body.isEmpty || !body.all Char.isDigit then none
      else some (if negative then -Int.ofNat (natOf body) else Int.ofNat (natOf body))
    else none

/-- An unsigned number: digits, an optional fraction, an optional exponent. -/
def unsigned? (cs : List Char) : Option Float :=
  if cs = ['i', 'n', 'f'] then some (1.0 / 0.0)
  else if cs = ['n', 'a', 'n'] then some (0.0 / 0.0)
  else
    let (whole, rest) := spanDigits cs
    let (fraction, tail) :=
      match rest with
      | '.' :: r => spanDigits r
      | r => ([], r)
    if whole.isEmpty && fraction.isEmpty then none
    else (exponent? tail).map fun e => nearest (natOf (whole ++ fraction)) (e - fraction.length)

/-- The floating-point number that a text denotes. -/
def ofText? (s : String) : Option Float :=
  match s.toList with
  | '-' :: rest => (unsigned? rest).map fun x => -x
  | '+' :: rest => unsigned? rest
  | cs => unsigned? cs

end CommandShell.Decimal
