/-!
# Blanks and comments of a settings file

A settings file is read from left to right.  A step of the reader takes what is left
of the text and returns what it found with what is left after it, or says what is
wrong with the text.
-/

namespace CommandShell.Document

/-- What may be wrong with the text of a settings file. -/
inductive Flaw where
  /-- It does not follow the grammar. -/
  | malformed
  /-- It holds a decimal integer with more digits than are converted. -/
  | tooManyDigits (digits : Nat)
deriving DecidableEq, Repr

/-- The outcome of one step: what was found, and the text that is left. -/
abbrev Reading (α : Type) := Except Flaw (α × List Char)

/-- The text does not follow the grammar. -/
def malformed {α : Type} : Except Flaw α := .error .malformed

/-- The blanks within a line. -/
def isSpace (c : Char) : Bool := c == ' ' || c == '\t'

/-- The blanks and the end of a line. -/
def isSpaceOrEnd (c : Char) : Bool := isSpace c || c == '\n'

/-- The control characters that stand in no comment and in no text of one line. -/
def isControl (c : Char) : Bool := (c.toNat < 32 && c != '\t') || c.toNat == 127

/-- Skips the blanks that a text starts with. -/
def skipSpaces (cs : List Char) : List Char := cs.dropWhile isSpace

/-- Skips the comment that a text starts with, if it does, up to the end of the line. -/
def skipComment (cs : List Char) : Except Flaw (List Char) :=
  match cs with
  | '#' :: rest =>
    if (rest.takeWhile (· != '\n')).any isControl then malformed
    else .ok (rest.dropWhile (· != '\n'))
  | _ => .ok cs

/-- A dropped front makes no text longer. -/
theorem length_dropWhile_le (p : Char → Bool) (cs : List Char) :
    (cs.dropWhile p).length ≤ cs.length :=
  (List.dropWhile_sublist p).length_le

/-- Skips blanks, ends of lines and comments. -/
def skipBlanks (cs : List Char) : Except Flaw (List Char) :=
  match h : cs.dropWhile isSpaceOrEnd with
  | '#' :: rest =>
    if (rest.takeWhile (· != '\n')).any isControl then malformed
    else
      have : (rest.dropWhile (· != '\n')).length < cs.length := by
        have h₁ := length_dropWhile_le isSpaceOrEnd cs
        have h₂ := length_dropWhile_le (· != '\n') rest
        rw [h, List.length_cons] at h₁
        omega
      skipBlanks (rest.dropWhile (· != '\n'))
  | rest => .ok rest
termination_by cs.length

end CommandShell.Document
