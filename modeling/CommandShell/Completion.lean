import CommandShell.Fault
import CommandShell.Store.Lookup

/-!
# Completion

A line is completed in two steps.  The words are followed down the tree as far as
they match exactly; then the word that comes next, partly typed, is completed among
the sub-commands of the last command matched.  A word that matches and is still
touched by the cursor is completed among its siblings, so that a whole keyword also
offers the longer ones.

## Main definitions

* `Store.descend` — the commands that the words name, one under the other.
* `Resolution`, `Store.resolve` — where a line stands in the tree.
* `Completion`, `Store.complete` — what the word being typed may become.
* `Store.candidates` — each with the place where it goes.
* `Store.completeLine` — the whole lines.
-/

namespace CommandShell

/-- Where a line stands in the tree. -/
structure Resolution where
  /-- The command whose sub-commands complete the line. -/
  node : CommandId
  /-- The number of words that lead to it. -/
  nest : Nat
  /-- The word being completed, if there is one. -/
  start? : Option String
deriving DecidableEq, Repr

/-- The sub-commands that the word being typed may become. -/
structure Completion where
  /-- Where the line stands. -/
  resolution : Resolution
  /-- The keywords that fit. -/
  found : Matches
deriving DecidableEq, Repr

namespace Store

variable (s : Store)

/-- The commands that words name, each among the sub-commands of the one before,
starting with `node` itself and ending where a word names none. -/
def descend (node : CommandId) : List String → Noted (List CommandId)
  | [] => return [node]
  | word :: rest => do
    match ← s.find node word with
    | none =>
      Noted.say Channel.completion Level.debug ("Command " ++ word ++ " not found")
      return [node]
    | some next =>
      Noted.say Channel.completion Level.debug ("Command " ++ word ++ " found!")
      return node :: (← descend next rest)

/-- Where words stand in the tree; `trailing` tells that a delimiter follows them. -/
def resolve (root : CommandId) (words : List String) (trailing : Bool) : Noted Resolution := do
  let path ← s.descend root words
  let nest := path.length - 1
  match words[nest]? with
  | some word => return ⟨path.getLastD root, nest, some word⟩
  | none =>
    if words.isEmpty then return ⟨root, 0, none⟩
    else if trailing then return ⟨path.getLastD root, nest, some ""⟩
    else return ⟨path.dropLast.getLastD root, nest - 1, words.getLast?⟩

/-- What the last word of a line may become.  There is no answer for an empty line, a
line with a comment, and where there are no sub-commands. -/
def complete (rules : LineRules) (root : CommandId) (line : String) :
    Noted (Option Completion) := do
  let words ← rules.split line
  if words.isEmpty then return none
  let kept ← rules.stripComment words
  if kept.length ≠ words.length then return none
  let resolution ← s.resolve root words (endsWithDelimiter rules.delimiters line)
  match ← s.startingWith resolution.node resolution.start? with
  | none => return none
  | some found =>
    Noted.say Channel.completion Level.debug
      ("partial_matches length: " ++ toString found.keywords.length ++ "  longest: "
        ++ toString found.longest)
    return some ⟨resolution, found⟩

/-- The offset from which a completion replaces the line: the start of the word being
completed, or the end of the line. -/
def insertionPoint (rules : LineRules) (line : String) (nest : Nat) : Nat :=
  (((spans rules.delimiters line)[nest]?).map Span.start).getD line.length

/-- The offset from which the line is replaced, with the keywords that may go there. -/
def candidates (rules : LineRules) (root : CommandId) (line : String) :
    Noted (Nat × List String) := do
  match ← s.complete rules root line with
  | none => return (0, [])
  | some completion =>
    return (insertionPoint rules line completion.resolution.nest, completion.found.keywords)

/-- A keyword with the delimiter that ends a completed word. -/
def ended (rules : LineRules) (keyword : String) : Except Fault String :=
  match rules.delimiters.toList with
  | [] => .error .noDelimiter
  | d :: _ => .ok (keyword.push d)

/-- Every completed version of a line: the word being completed is replaced by a
keyword and a delimiter, and what follows it is dropped. -/
def completeLine (rules : LineRules) (root : CommandId) (line : String) :
    Noted (Except Fault (List String)) := do
  let (start, keywords) ← s.candidates rules root line
  let before := String.ofList (line.toList.take start)
  return keywords.mapM fun keyword => (ended rules keyword).map (before ++ ·)

end Store

end CommandShell
