import CommandShell.Text.Octets

/-!
# Lines of a text file

A line ends at a line feed, a carriage return, or the two together, whichever
system wrote the file.  Ends are found among the octets, so that a line can be taken
from a file before the rest of it is there; no longer character holds such an octet.
In the text of a line, its end is one line feed; a last line without an end has none.
-/

namespace CommandShell.Text

/-! ## Lines of octets -/

/-- A line ends with this octet, where `rest` follows: a carriage return before a line
feed is not the last of its line. -/
def endsLine (b : UInt8) (rest : List UInt8) : Bool :=
  b == 10 || (b == 13 && rest.head? != some 10)

/-- The octets of the first line, with those that end it. -/
def firstLine : List UInt8 → List UInt8
  | [] => []
  | b :: rest => if endsLine b rest then [b] else b :: firstLine rest

/-- The octets of each line, with those that end it. -/
def splitLines : List UInt8 → List (List UInt8)
  | [] => []
  | b :: rest =>
    if endsLine b rest then [b] :: splitLines rest
    else
      match splitLines rest with
      | [] => [[b]]
      | line :: lines => (b :: line) :: lines

/-- Nothing is lost: the lines put together are the octets. -/
theorem flatten_splitLines (octets : List UInt8) : (splitLines octets).flatten = octets := by
  induction octets with
  | nil => rfl
  | cons b rest ih =>
    rw [splitLines]
    split
    · simp [ih]
    · split <;> simp_all

/-- The lines are the first one and those of what follows it. -/
theorem splitLines_cons (b : UInt8) (rest : List UInt8) :
    splitLines (b :: rest) =
      firstLine (b :: rest) :: splitLines ((b :: rest).drop (firstLine (b :: rest)).length) := by
  induction rest generalizing b with
  | nil => by_cases h : endsLine b [] <;> simp [splitLines, firstLine, h]
  | cons c rest ih =>
    rw [splitLines, firstLine]
    split
    · simp
    · rw [ih c]
      simp

/-! ## Texts -/

/-- Turns a carriage return, alone or before a line feed, into a line feed. -/
def unifyEnds : List Char → List Char
  | [] => []
  | '\r' :: '\n' :: rest => '\n' :: unifyEnds rest
  | c :: rest => (if c = '\r' then '\n' else c) :: unifyEnds rest

/-- The text of a line, read leniently, with a line feed for its end. -/
def lineText (line : List UInt8) : String :=
  String.ofList (unifyEnds (decodeLossy line))

/-- A line without the line feeds at its end. -/
def bare (line : String) : String :=
  String.ofList (line.toList.reverse.dropWhile (· = '\n')).reverse

end CommandShell.Text
