import CommandShell.Text.Printable

/-!
# Quoted text

Messages show a keyword, a path or a setting between quotes.  The quote is the
apostrophe, unless the text holds an apostrophe and no double quote; the quote in
use, the backslash and characters that do not print are escaped.
-/

namespace CommandShell.Text

/-- The number `n` in lower-case hexadecimal, padded with zeros to `width` digits. -/
def hex (width n : Nat) : List Char :=
  let digits := Nat.toDigits 16 n
  List.replicate (width - digits.length) '0' ++ digits

/-- The apostrophe, the quote that is used unless the text itself needs the other. -/
def singleQuote : Char := '\x27'

/-- The quote for a text that holds an apostrophe and no double quote. -/
def doubleQuote : Char := '\x22'

/-- A character as it stands in a text quoted with `quote`. -/
def escape (quote c : Char) : List Char :=
  if c = quote ∨ c = '\\' then ['\\', c]
  else if c = '\n' then ['\\', 'n']
  else if c = '\r' then ['\\', 'r']
  else if c = '\t' then ['\\', 't']
  else if isPrintable c then [c]
  else if c.toNat < 0x100 then '\\' :: 'x' :: hex 2 c.toNat
  else if c.toNat < 0x10000 then '\\' :: 'u' :: hex 4 c.toNat
  else '\\' :: 'U' :: hex 8 c.toNat

/-- The quote that a text is put between. -/
def quoteFor (cs : List Char) : Char :=
  if cs.contains singleQuote && !cs.contains doubleQuote then doubleQuote else singleQuote

/-- A text between quotes, with every character escaped that needs it. -/
def quoted (s : String) : String :=
  let cs := s.toList
  let quote := quoteFor cs
  String.ofList (quote :: (cs.flatMap (escape quote) ++ [quote]))

end CommandShell.Text
