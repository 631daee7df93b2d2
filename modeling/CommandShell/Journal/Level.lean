import CommandShell.Note
import CommandShell.Numeral

/-!
# Names of levels

A user names a level by its rank, from 0 for the most talkative to 5, or by its name
in any case.
-/

namespace CommandShell.Level

/-- The levels that a rank from 0 on denotes. -/
def ranked : List Int := [verbose, debug, info, warning, error, critical]

/-- The names of levels; the first name of a level is the one that records show. -/
def named : List (String × Int) :=
  [("CRITICAL", critical), ("FATAL", critical), ("ERROR", error), ("WARNING", warning),
    ("WARN", warning), ("INFO", info), ("DEBUG", debug), ("VERBOSE", verbose), ("NOTSET", 0)]

/-- The name of a level. -/
def name (level : Int) : String :=
  ((named.find? (·.2 == level)).map (·.1)).getD ("Level " ++ toString level)

/-- The capital of a letter, as far as level names go: besides the ASCII letters only
the dotless i and the long s have an ASCII capital, and no letter has several that
follow each other in a name. -/
def capital (c : Char) : Char :=
  if c.toNat = 0x131 then 'I' else if c.toNat = 0x17F then 'S' else c.toUpper

/-- The level that a user means: a rank in any base, or a name in any case. -/
def parse? (value : String) : Option Int :=
  let value := Text.strip value
  match Numeral.marked? value with
  | some rank => if 0 ≤ rank then ranked[rank.toNat]? else none
  | none =>
    let capitals := String.ofList (value.toList.map capital)
    (named.find? (·.1 == capitals)).map (·.2)

end CommandShell.Level
