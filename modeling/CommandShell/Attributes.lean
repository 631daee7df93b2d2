/-!
# Attributes of a command

A command carries independent flags that are added and never cleared.  Three of
them mean something to the shell; applications may use further bits.
-/

namespace CommandShell

/-- A set of flags, bit by bit. -/
structure Attributes where
  /-- The bits. -/
  bits : Nat := 0
deriving DecidableEq, Repr, Inhabited

namespace Attributes

/-- The command stands for another one and borrows its sub-commands. -/
def aliasFlag : Attributes := ⟨1⟩

/-- The command may be removed or redefined while the shell runs. -/
def mutableFlag : Attributes := ⟨2⟩

/-- The command is part of a construct of several lines. -/
def constructFlag : Attributes := ⟨4⟩

/-- The flags of both. -/
def union (a b : Attributes) : Attributes := ⟨a.bits ||| b.bits⟩

/-- The flag of weight `2 ^ i` is set. -/
def has (a : Attributes) (i : Nat) : Bool := a.bits.testBit i

/-- The command is an alias. -/
def isAlias (a : Attributes) : Bool := a.has 0

/-- The command may be removed or redefined. -/
def isMutable (a : Attributes) : Bool := a.has 1

/-- The command is part of a construct. -/
def isConstruct (a : Attributes) : Bool := a.has 2

/-- The least number of bits that hold `n`. -/
def width (n : Nat) : Nat := if n = 0 then 0 else n.log2 + 1

/-- The flags that an integer stands for.  A negative one stands for all flags but those
of its complement, among as many as it takes to hold it and at least the three named
ones. -/
def ofInt : Int → Attributes
  | .ofNat n => ⟨n⟩
  | .negSucc n => if n < 8 then ⟨7 - n⟩ else ⟨Nat.pow 2 (width (n + 1)) - (n + 1)⟩

/-- Adds the flags that an integer stands for. -/
def add (a : Attributes) (n : Int) : Attributes := a.union (ofInt n)

/-- The names of the flags that are set, lowest first. -/
def names (a : Attributes) : List String :=
  (if a.isAlias then ["ALIAS"] else []) ++ (if a.isMutable then ["MUTABLE"] else [])
    ++ (if a.isConstruct then ["CONSTRUCT"] else [])

/-- How messages show the flags: names, then the number of the unnamed bits, then the
number of all. -/
def text (a : Attributes) : String :=
  let unnamed := a.bits / 8 * 8
  let parts := a.names ++ (if unnamed = 0 then [] else [toString unnamed])
  let label :=
    if a.bits = 0 then ".NONE"
    else if a.names.isEmpty then ""
    else "." ++ "|".intercalate parts
  "<CommandAttribute" ++ label ++ ": " ++ toString a.bits ++ ">"

end Attributes

end CommandShell
