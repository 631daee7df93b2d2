import CommandShell.Document.Scan
import CommandShell.Numeral

/-!
# Texts of a settings file

A text stands between quotes.  Between double quotes a backslash escapes characters;
between single quotes everything stands for itself.  Three quotes on each side admit
several lines.
-/

namespace CommandShell.Document

/-! ## Single quotes -/

/-- Reads up to the closing single quote. -/
def literal (cs : List Char) : Reading String :=
  match cs.dropWhile (· != '\x27') with
  | [] => malformed
  | _ :: rest =>
    let body := cs.takeWhile (· != '\x27')
    if body.any isControl then malformed else .ok (String.ofList body, rest)

/-- A closing quote may be preceded by up to two of its kind, which belong to the text:
what is read after the first three of them. -/
def surplus (quote : Char) (body : List Char) : List Char → String × List Char
  | c :: d :: rest =>
    if c = quote then
      if d = quote then (String.ofList (body ++ [quote, quote]), rest)
      else (String.ofList (body ++ [quote]), d :: rest)
    else (String.ofList body, c :: d :: rest)
  | [c] => if c = quote then (String.ofList (body ++ [quote]), []) else (String.ofList body, [c])
  | [] => (String.ofList body, [])

/-- Reads up to three closing single quotes; `taken` is what was read, in reverse. -/
def literalLinesFrom (taken : List Char) : List Char → Reading String
  | '\x27' :: '\x27' :: '\x27' :: rest => .ok (surplus '\x27' taken.reverse rest)
  | c :: rest =>
    if isControl c && c != '\n' then malformed else literalLinesFrom (c :: taken) rest
  | [] => malformed

/-! ## Double quotes -/

/-- The characters that a backslash and one character stand for. -/
def shortEscapes : List (Char × Char) :=
  [('b', '\x08'), ('t', '\t'), ('n', '\n'), ('f', '\x0c'), ('r', '\r'), ('\x22', '\x22'),
    ('\\', '\\')]

/-- The value of a digit in base sixteen. -/
def hexDigit? (c : Char) : Option Nat :=
  if c.toNat < 128 then Numeral.digitIn? 16 c else none

/-- The character with the number that digits in base sixteen denote. -/
def charOfHex? (width : Nat) (digits : List Nat) : Option Char :=
  if digits.length = width ∧ (Numeral.valueOf 16 digits).isValidChar then
    some (Char.ofNat (Numeral.valueOf 16 digits))
  else none

/-- Reads the number of a character, of `width` digits in base sixteen. -/
def codePoint (width : Nat) (cs : List Char) : Reading (List Char) :=
  match charOfHex? width ((cs.take width).filterMap hexDigit?) with
  | some c => .ok ([c], cs.drop width)
  | none => malformed

/-- What is left after the number of a character is no longer than what was there. -/
theorem length_le_of_codePoint {width : Nat} {cs found rest : List Char}
    (h : codePoint width cs = .ok (found, rest)) : rest.length ≤ cs.length := by
  unfold codePoint malformed at h
  split at h
  · cases h
    simp
  · cases h

/-- Reads what follows a backslash.  Where a text may have several lines, one at the
end of a line skips the blanks up to the next character. -/
def escape (lines : Bool) : List Char → Reading (List Char)
  | [] => malformed
  | c :: rest =>
    if lines && isSpaceOrEnd c then
      match (c :: rest).dropWhile isSpace with
      | [] => .ok ([], [])
      | d :: after => if d = '\n' then .ok ([], after.dropWhile isSpaceOrEnd) else malformed
    else if c = 'u' then codePoint 4 rest
    else if c = 'U' then codePoint 8 rest
    else
      match shortEscapes.find? (·.1 == c) with
      | some (_, d) => .ok ([d], rest)
      | none => malformed

/-- What is left after an escape is no longer than what followed the backslash. -/
theorem length_le_of_escape {lines : Bool} {cs found rest : List Char}
    (h : escape lines cs = .ok (found, rest)) : rest.length ≤ cs.length := by
  unfold escape malformed at h
  split at h
  · cases h
  · rename_i c tail
    split at h
    · split at h
      · cases h
        simp
      · rename_i d after heq
        have h₁ := length_dropWhile_le isSpace (c :: tail)
        have h₂ := length_dropWhile_le isSpaceOrEnd after
        rw [heq, List.length_cons] at h₁
        split at h <;> cases h
        omega
    · split at h
      · exact Nat.le_succ_of_le (length_le_of_codePoint h)
      · split at h
        · exact Nat.le_succ_of_le (length_le_of_codePoint h)
        · split at h <;> cases h
          simp

/-- Reads up to the closing double quotes, one or three of them; `taken` is what was
read, in reverse. -/
def basicFrom (lines : Bool) (taken : List Char) (cs : List Char) : Reading String :=
  match cs with
  | [] => malformed
  | '\x22' :: rest =>
    if !lines then .ok (String.ofList taken.reverse, rest)
    else if rest.take 2 = ['\x22', '\x22'] then
      .ok (surplus '\x22' taken.reverse (rest.drop 2))
    else basicFrom lines ('\x22' :: taken) rest
  | '\\' :: rest =>
    match h : escape lines rest with
    | .ok (found, after) =>
      have := length_le_of_escape h
      basicFrom lines (found.reverse ++ taken) after
    | .error flaw => .error flaw
  | c :: rest =>
    if isControl c && !(lines && c == '\n') then malformed
    else basicFrom lines (c :: taken) rest
termination_by cs.length

/-! ## Any quotation -/

/-- A line end right after three opening quotes does not count. -/
def skipFirstEnd : List Char → List Char
  | '\n' :: rest => rest
  | cs => cs

/-- Reads the text that starts with a quote. -/
def quotation : List Char → Reading String
  | '\x22' :: '\x22' :: '\x22' :: rest => basicFrom true [] (skipFirstEnd rest)
  | '\x22' :: rest => basicFrom false [] rest
  | '\x27' :: '\x27' :: '\x27' :: rest => literalLinesFrom [] (skipFirstEnd rest)
  | '\x27' :: rest => literal rest
  | _ => malformed

end CommandShell.Document
