import CommandShell.Disk
import CommandShell.Journal.Level
import CommandShell.Journal.Style

/-!
# The journal

Notes go to named loggers.  Each logger has a level, below which it keeps silent, and
the destinations that are switched on: the screen and possibly a file.  The journal
knows all loggers, so that a destination or a level can be changed for all of them at
once, and for those to come.

## Main definitions

* `Sink`, `Logger`, `Journal` — the state.
* `Journal.obtain` — a logger by name, made if it is new.
* `Journal.setLevel`, `Journal.setScreen`, `Journal.setFile`, `Journal.restart`.
* `Journal.deliveries` — where a note goes, and as what line.
-/

namespace CommandShell

/-- Where records go, and how they look there. -/
inductive Destination where
  /-- The screen, in debug form or not, with colours or not. -/
  | screen (debug colour : Bool)
  /-- A file. -/
  | file (place : Place)
deriving DecidableEq, Repr

/-- A destination that was set up.  Its number tells it from every other, also from an
earlier one for the same file. -/
structure Sink where
  /-- Its number. -/
  serial : Nat
  /-- Where it leads. -/
  destination : Destination
deriving DecidableEq, Repr

/-- A named source of records. -/
structure Logger where
  /-- Its name. -/
  name : String
  /-- Records below this level are dropped; zero leaves it to the loggers above. -/
  level : Int
  /-- Where its records go. -/
  sinks : List Sink := []
deriving DecidableEq, Repr

/-- The state of the log. -/
structure Journal where
  /-- The destinations that are set up. -/
  sinks : List Sink := []
  /-- The loggers that are known. -/
  loggers : List Logger := []
  /-- The destination on the screen. -/
  screen : Option Sink := none
  /-- The destination in a file. -/
  file : Option Sink := none
  /-- The level that was set for all loggers. -/
  level : Option Int := none
  /-- Debug mode is on. -/
  debug : Bool := false
  /-- The number of the next destination. -/
  nextSerial : Nat := 0
deriving DecidableEq, Repr

namespace Logger

/-- Adds a destination, unless it is there. -/
def attach (logger : Logger) (sink : Sink) : Logger :=
  if logger.sinks.contains sink then logger
  else { logger with sinks := logger.sinks ++ [sink] }

/-- Takes a destination away. -/
def detach (logger : Logger) (sink : Sink) : Logger :=
  { logger with sinks := logger.sinks.erase sink }

/-- Changes the level. -/
def setLevel (logger : Logger) (level : Int) : Logger :=
  { logger with level := level }

/-- The name at the top of all names. -/
def top : String := "root"

/-- The name that a logger is known by; the empty name is the top. -/
def canonical (name : String) : String :=
  if name.isEmpty then top else name

end Logger

namespace Journal

/-! ## Levels -/

/-- The level of loggers that nobody chose one for. -/
def defaultLevel (j : Journal) : Int :=
  j.level.getD (if j.debug then Level.debug else Level.warning)

/-- The logger of a name. -/
def find? (j : Journal) (name : String) : Option Logger :=
  j.loggers.find? (·.name == name)

/-- The level of the top, which starts at warnings. -/
def topLevel (j : Journal) : Int :=
  (j.find? Logger.top).elim Level.warning (·.level)

/-- The logger of a name that another name continues.  One whose name begins like that of
the top stands only above the loggers made after it. -/
def above? (j : Journal) (logger : Logger) (name : String) : Option Logger :=
  if name.toList.isPrefixOf Logger.top.toList then
    (j.loggers.takeWhile (·.name != logger.name)).find? (·.name == name)
  else j.find? name

/-- The level that a logger takes from those above it: that of the nearest that has one.
The letters are those of its name, from the end; each dot marks a name above it, except
the one right before a dot at which no logger was found. -/
def levelAbove (j : Journal) (logger : Logger) : List Char → Int
  | '.' :: c :: rest =>
    match j.above? logger (String.ofList (c :: rest).reverse) with
    | none => levelAbove j logger rest
    | some found => if found.level ≠ 0 then found.level else levelAbove j found (c :: rest)
  | _ :: rest => levelAbove j logger rest
  | [] => j.topLevel

/-- The level below which a logger keeps silent: its own, or that of the nearest
logger above that has one. -/
def threshold (j : Journal) (logger : Logger) : Int :=
  if logger.level ≠ 0 then logger.level
  else j.levelAbove logger logger.name.toList.reverse

/-- A record of a level passes a logger.  Levels that are not positive never do. -/
def passes (j : Journal) (logger : Logger) (level : Int) : Bool :=
  0 < level && j.threshold logger ≤ level

/-! ## Delivery -/

/-- A line for a destination. -/
inductive Delivery where
  /-- For the screen. -/
  | screen (line : String)
  /-- For a file. -/
  | file (place : Place) (line : String)
deriving DecidableEq, Repr

/-- A note as a line for a sink. -/
def deliver (note : Note) (sink : Sink) : Delivery :=
  match sink.destination with
  | .screen debug colour => .screen (Style.screenLine debug colour note)
  | .file place => .file place (Style.fileLine (Level.name note.level) note)

/-- The lines that come of a note.  Where a logger has no destination at all, warnings
and worse still reach the screen. -/
def deliveries (j : Journal) (note : Note) : List Delivery :=
  match j.find? note.channel with
  | none => []
  | some logger =>
    if !j.passes logger note.level then []
    else if logger.sinks.isEmpty then
      if Level.warning ≤ note.level then [.screen (Style.plainLine note)] else []
    else logger.sinks.map (deliver note)

/-! ## Destinations -/

/-- Sets up a destination for all loggers. -/
def attach (j : Journal) (sink : Sink) : Journal :=
  { j with
    sinks := j.sinks ++ [sink]
    loggers := j.loggers.map (·.attach sink)
    nextSerial := max j.nextSerial (sink.serial + 1) }

/-- Takes a destination away from all loggers. -/
def detach (j : Journal) (sink : Sink) : Journal :=
  { j with sinks := j.sinks.erase sink, loggers := j.loggers.map (·.detach sink) }

/-- Takes a destination away, if there is one. -/
def detach? (j : Journal) (sink : Option Sink) : Journal :=
  sink.elim j j.detach

/-- Switches the log on the screen on or off. -/
def setScreen (j : Journal) (env : Environment) (enabled : Bool) : Journal :=
  match enabled, j.screen with
  | true, none =>
    let sink : Sink := ⟨j.nextSerial, .screen j.debug (Style.useColour env false)⟩
    { j with screen := some sink }.attach sink
  | false, some sink => { j with screen := none }.detach sink
  | _, _ => j

/-- Changes the log file; the empty path ends logging to a file.  If the file cannot
be opened, nothing changes. -/
def setFile (j : Journal) (disk : Disk) (path : String) : Except Fault (Journal × Disk) := do
  if path.isEmpty then
    return ({ j.detach? j.file with file := none }, disk)
  else
    let (place, disk) ← disk.openForAppend (Path.absolute disk.cwdPath path)
    let sink : Sink := ⟨j.nextSerial, .file place⟩
    return ({ j.detach? j.file with file := some sink }.attach sink, disk)

/-- Changes the level of all loggers, present and future. -/
def setLevel (j : Journal) (level : Int) : Journal :=
  { j with level := some level, loggers := j.loggers.map (·.setLevel level) }

/-- Turns debug mode on; the level of all loggers follows unless one was set. -/
def enableDebug (j : Journal) : Journal :=
  { j with
    debug := true
    loggers := if j.level.isNone then j.loggers.map (·.setLevel Level.debug) else j.loggers }

/-- Takes all destinations away. -/
def clear (j : Journal) : Journal :=
  { j.sinks.foldl Journal.detach j with file := none, screen := none }

/-- Sets the log up anew: a file if one is given, and the screen.  If the file cannot
be opened, no destination is left. -/
def restart (j : Journal) (disk : Disk) (env : Environment) (path : String) (debug : Bool) :
    Except Fault Unit × Journal × Disk :=
  let j := (if debug then j.enableDebug else j).clear
  if path.isEmpty then (.ok (), j.setScreen env true, disk)
  else
    match j.setFile disk path with
    | .error fault => (.error fault, j, disk)
    | .ok (j, disk) => (.ok (), j.setScreen env true, disk)

/-! ## Loggers -/

/-- A logger by name, with the given level or the one for new loggers.  One that is
known already gets that level too. -/
def obtain (j : Journal) (name : String) (level : Option Int := none) : Noted Journal :=
  let name' := Logger.canonical name
  let level := level.getD j.defaultLevel
  let prepare (logger : Logger) : Logger := j.sinks.foldl Logger.attach (logger.setLevel level)
  let loggers :=
    if (j.find? name').isSome then
      j.loggers.map fun logger => if logger.name == name' then prepare logger else logger
    else j.loggers ++ [prepare ⟨name', level, []⟩]
  { value := { j with loggers := loggers }
    notes := [⟨name', Level.info, "Logger \"" ++ name ++ "\" initialized", none⟩] }

/-- The channels that are there before anything happens. -/
def firstChannels : List String :=
  [Channel.words, Channel.registry, Channel.command, Channel.completion, Channel.hints,
    Channel.builtins]

/-- The state of the log before anything happens. -/
def fresh : Journal :=
  { loggers := firstChannels.map fun name => ⟨name, Level.warning, []⟩ }

end Journal

end CommandShell
