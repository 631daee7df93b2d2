/-!
# White space

Settings and help rows are trimmed of white space in the sense of the Unicode
standard, together with the four separators U+001C to U+001F.  The class is wider
than the ASCII one that core knows, so it is a table of its own.
-/

namespace CommandShell.Text

/-- White space: the ASCII controls 9 to 13 and 28 to 31, the space, and the
characters above ASCII that the Unicode standard lists. -/
def isBlank (c : Char) : Bool :=
  let n := c.toNat
  (9 ≤ n && n ≤ 13) || (28 ≤ n && n ≤ 32) || n == 0x85 || n == 0xA0 || n == 0x1680
    || (0x2000 ≤ n && n ≤ 0x200A) || n == 0x2028 || n == 0x2029 || n == 0x202F
    || n == 0x205F || n == 0x3000

/-- A list without the characters at its end that satisfy `p`. -/
def dropRightWhile (p : Char → Bool) (cs : List Char) : List Char :=
  (cs.reverse.dropWhile p).reverse

/-- A text without the blanks at its end. -/
def stripRight (s : String) : String :=
  String.ofList (dropRightWhile isBlank s.toList)

/-- A text without the blanks at its two ends. -/
def strip (s : String) : String :=
  String.ofList (dropRightWhile isBlank (s.toList.dropWhile isBlank))

end CommandShell.Text
