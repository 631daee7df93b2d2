import CommandShell.Note

/-!
# Words of a line

A line is split at every delimiter; runs of delimiters produce no word.  The words
from the first one that starts with the comment marker on are dropped, and so are
words beyond a limit.

Offsets count characters.  A word is known by its span, so that a line editor can
replace it in place.

## Main definitions

* `Span`, `spans` — where the words of a line are.
* `LineRules` — delimiters, comment marker and limit.
* `LineRules.split`, `LineRules.stripComment`, `LineRules.tokenize` — the words of a
  line, with what is to be said about those that were dropped.
-/

namespace CommandShell

/-- The offsets of a word: of its first character, and of the one after its last. -/
structure Span where
  /-- The offset of the first character. -/
  start : Nat
  /-- The offset after the last character. -/
  stop : Nat
deriving DecidableEq, Repr

/-- The character is one of the delimiters. -/
def isDelimiter (delimiters : String) (c : Char) : Bool :=
  delimiters.toList.contains c

/-- Scans from offset `position`; `open?` is the start of the word that is open. -/
def spansFrom (delimiter : Char → Bool) (position : Nat) (open? : Option Nat) :
    List Char → List Span
  | [] =>
    match open? with
    | some start => [⟨start, position⟩]
    | none => []
  | c :: rest =>
    if delimiter c then
      match open? with
      | some start => ⟨start, position⟩ :: spansFrom delimiter (position + 1) none rest
      | none => spansFrom delimiter (position + 1) none rest
    else spansFrom delimiter (position + 1) (some (open?.getD position)) rest

/-- The spans of the words of a line, from left to right. -/
def spans (delimiters line : String) : List Span :=
  spansFrom (isDelimiter delimiters) 0 none line.toList

/-- The characters of a line within a span. -/
def Span.cut (s : Span) (line : String) : String :=
  String.ofList ((line.toList.take s.stop).drop s.start)

/-- The words of a line. -/
def wordsOf (delimiters line : String) : List String :=
  (spans delimiters line).map (·.cut line)

/-- The text starts with `start`. -/
def startsWith (start text : String) : Bool :=
  start.toList.isPrefixOf text.toList

/-- The line ends with a delimiter. -/
def endsWithDelimiter (delimiters line : String) : Bool :=
  (line.toList.getLast?.map (isDelimiter delimiters)).getD false

/-- The first `limit` elements, or, with a negative limit, all but the last `-limit`. -/
def capped {α : Type} (limit : Int) (xs : List α) : List α :=
  if 0 ≤ limit then xs.take limit.toNat else xs.take (xs.length - (-limit).toNat)

/-- How lines are split into words. -/
structure LineRules where
  /-- Each of these characters separates words. -/
  delimiters : String := " \t\r\n"
  /-- A word that starts with this marker starts a comment; the empty marker marks
  nothing. -/
  comment : String := "#"
  /-- How many words a line may have. -/
  maxWords : Int := 32
deriving DecidableEq, Repr

namespace LineRules

/-- The words of a line, those beyond the limit dropped with a warning. -/
def split (rules : LineRules) (line : String) : Noted (List String) :=
  let words := wordsOf rules.delimiters line
  if rules.maxWords < words.length then do
    Noted.say Channel.words Level.warning
      ("Too many arguments (" ++ toString words.length ++ "), ignoring the last "
        ++ toString (words.length - rules.maxWords))
    return capped rules.maxWords words
  else return words

/-- The word starts a comment. -/
def isComment (rules : LineRules) (word : String) : Bool :=
  !rules.comment.isEmpty && startsWith rules.comment word

/-- The words before the first that starts a comment. -/
def stripComment (rules : LineRules) (words : List String) : Noted (List String) := do
  let kept := words.takeWhile (!rules.isComment ·)
  if kept.length < words.length then
    Noted.say Channel.words Level.verbose
      ("Found comment " ++ rules.comment ++ " at arg " ++ toString kept.length)
  return kept

/-- The words of a line that count. -/
def tokenize (rules : LineRules) (line : String) : Noted (List String) := do
  rules.stripComment (← rules.split line)

end LineRules

end CommandShell
