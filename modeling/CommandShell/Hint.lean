import CommandShell.Completion

/-!
# Argument hints

The hints of a command list its arguments, separated like words.  Once a line has
named a command by its first `nest` words and holds `count` words in all, the argument
to come next is hint number `count - nest`.
-/

namespace CommandShell

/-- The number of the hint to show, if there is such a hint. -/
def hintIndex (delimiters argHints : String) (count nest : Int) : Option Nat :=
  let index := count - nest
  if index < 0 ∨ (spans delimiters argHints).length ≤ index then none else some index.toNat

/-- The span of the hint to show. -/
def hintSpan (delimiters argHints : String) (count nest : Int) : Option Span :=
  (hintIndex delimiters argHints count nest).bind fun index => (spans delimiters argHints)[index]?

/-- The hint for the next argument alone. -/
def nextHint (delimiters argHints : String) (count nest : Int) : Option String :=
  (hintSpan delimiters argHints count nest).map (·.cut argHints)

/-- The hints from the next argument to the end. -/
def hintsFrom (delimiters argHints : String) (count nest : Int) : Option String :=
  (hintSpan delimiters argHints count nest).map fun span =>
    String.ofList (argHints.toList.drop span.start)

/-- The hints from the next argument to the end, parted by one space from what was
typed before. -/
def remainingHints (delimiters argHints : String) (count nest : Int) : Option String :=
  (hintsFrom delimiters argHints count nest).map (" " ++ ·)

/-- The hint to show after a line, parted from it by one space unless the line ends
with a delimiter. -/
def Store.hintFor (s : Store) (rules : LineRules) (root : CommandId) (line : String) :
    Noted (Option String) := do
  let words ← rules.tokenize line
  if words.isEmpty then return none
  let path ← s.descend root words
  let nest := path.length - 1
  if nest = 0 then return none
  let argHints := (s.command (path.getLastD root)).argHints
  let hint := hintsFrom rules.delimiters argHints words.length nest
  let parted := remainingHints rules.delimiters argHints words.length nest
  Noted.say Channel.hints Level.debug
    ("hint for " ++ Text.quoted line ++ ": " ++ (parted.map Text.quoted).getD "None")
  return if endsWithDelimiter rules.delimiters line then hint else parted

end CommandShell
