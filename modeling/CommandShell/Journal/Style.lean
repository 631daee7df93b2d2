import CommandShell.Environment
import CommandShell.Note

/-!
# Looks of the log

Records on the screen may be coloured by their level, and in debug mode they also tell
their channel and position.  Records in a file tell their time, level, channel and
position.  Times and positions differ from run to run and are shown by a mark.
-/

namespace CommandShell.Style

/-- The escape sequence that selects some codes; none selects nothing. -/
def select (codes : List String) : String :=
  if codes.isEmpty then "" else "\x1b[" ++ ";".intercalate codes ++ "m"

/-- The escape sequence that ends all colours. -/
def reset : String := "\x1b[0m"

/-- The codes of a level; levels that have none are shown plainly. -/
def codes (level : Int) : List String :=
  if level = Level.warning then ["33", "2"]
  else if level = Level.error then ["31", "2"]
  else if level = Level.critical then ["31", "1"]
  else []

/-- A text in the colours of a level, if colours are wanted and the level has some. -/
def paint (level : Int) (colour : Bool) (text : String) : String :=
  if !colour || (codes level).isEmpty then text else select (codes level) ++ text ++ reset

/-- Colours are used where the environment asks for them and does not forbid them;
otherwise on a terminal only. -/
def useColour (env : Environment) (terminal : Bool) : Bool :=
  if env.isSet "NO_COLOR" then false
  else if env.isSet "FORCE_COLOR" then true
  else terminal

/-- The mark for the time of a record. -/
def time : String := "TIME"

/-- The mark for the position of a record. -/
def position : String := "FILE:0"

/-- A text set to the right of a column. -/
def rightAligned (width : Nat) (s : String) : String :=
  String.ofList (List.replicate (width - s.length) ' ') ++ s

/-- A record's line followed by the line of its cause, if it has one. -/
def withCause (line : String) (note : Note) : String :=
  match note.cause with
  | some cause => line ++ "\n" ++ cause
  | none => line

/-- A record on the screen. -/
def screenLine (debug colour : Bool) (note : Note) : String :=
  let line :=
    if debug then rightAligned 20 note.channel ++ " - " ++ note.message ++ " // " ++ position
    else note.message
  withCause (paint note.level colour line) note ++ "\n"

/-- A record in a file, under the name of its level. -/
def fileLine (levelName : String) (note : Note) : String :=
  withCause (time ++ " [" ++ levelName ++ "] " ++ note.channel ++ " :: " ++ note.message
    ++ " :: " ++ position) note ++ "\n"

/-- A record where no destination is set up. -/
def plainLine (note : Note) : String :=
  withCause note.message note ++ "\n"

end CommandShell.Style
