import CommandShell.Journal
import CommandShell.Store.Basic

/-!
# The machine

The machine is everything that a line can change.  Handlers work on the *workspace*:
the commands, the files, the output, and whatever state the application keeps of its
own.  A handler is also given words, in a list that it may change; whoever called it sees
what has become of them.  The depth of nested dispatches, the journal and the trace of the
run are out of the handlers' reach.

## Main definitions

* `Workspace` — what handlers see and change.
* `Call`, `Event` — what the trace of a run records.
* `Machine` — the whole state.
* `Session` — a computation on it that may fail.
* `Session.apart` — one that leaves the tree as it was.
* `Machine.tell`, `Machine.changeLog` — the journal.
-/

namespace CommandShell

variable {σ α β : Type}

/-- What handlers see and change; `σ` is the state of the application. -/
structure Workspace (σ : Type) where
  /-- The commands and registries. -/
  store : Store
  /-- The loop is to end before the next line is read. -/
  stopped : Bool := false
  /-- The files. -/
  disk : Disk
  /-- The environment. -/
  environment : Environment
  /-- What was written so far. -/
  output : String := ""
  /-- The state of the application. -/
  application : σ

/-- One call of a handler. -/
structure Call where
  /-- The command that was called. -/
  command : CommandId
  /-- Its keyword. -/
  keyword : String
  /-- The handler. -/
  handler : Handler
  /-- What the handler is given. -/
  context : Context
  /-- The words of the line, from the one that named the command. -/
  args : List String
  /-- The depth of nested dispatches. -/
  depth : Nat

/-- What the trace of a run records. -/
inductive Event where
  /-- A dispatch began, as the one of this depth. -/
  | entered (depth : Nat) (line : String)
  /-- A handler was called. -/
  | called (call : Call)
  /-- A handler came back, with an answer or a fault, and left these of its words. -/
  | returned (call : Call) (outcome : Except Fault Int) (left : List String)
  /-- A dispatch of this depth ended, with a status or a fault. -/
  | left (depth : Nat) (line : String) (outcome : Except Fault Int)
  /-- A handler left a remark. -/
  | remark (text : String)

/-- Everything that a line can change. -/
structure Machine (σ : Type) where
  /-- The depth of nested dispatches. -/
  depth : Nat := 0
  /-- What handlers work on. -/
  workspace : Workspace σ
  /-- The words that the handler under way was given, as they are now; once it has come back,
  as it left them. -/
  words : List String := []
  /-- The log. -/
  journal : Journal
  /-- What was shown on the screen besides the output. -/
  screen : String := ""
  /-- What happened, latest first. -/
  trace : List Event := []

/-! ## Computations -/

/-- A computation on the machine that may fail; what it changed before stays. -/
abbrev Session (σ α : Type) := Machine σ → Except Fault α × Machine σ

namespace Session

/-- An answer that changes nothing. -/
def pure (a : α) : Session σ α := fun m => (.ok a, m)

/-- A failure that changes nothing. -/
def raise (fault : Fault) : Session σ α := fun m => (.error fault, m)

/-- One computation after another, unless the first fails. -/
def bind (x : Session σ α) (f : α → Session σ β) : Session σ β := fun m =>
  match x m with
  | (.ok a, m) => f a m
  | (.error fault, m) => (.error fault, m)

/-- Runs a session on a tree of its own: afterwards the tree, the depth, the words and the
trace are what they were before. -/
def apart (x : Session σ α) : Session σ α := fun m =>
  let (outcome, after) := x m
  (outcome,
    { after with
      depth := m.depth
      words := m.words
      trace := m.trace
      workspace :=
        { after.workspace with store := m.workspace.store, stopped := m.workspace.stopped } })

/-- A change of the machine. -/
def change (f : Machine σ → Machine σ) : Session σ Unit := fun m => (.ok (), f m)

end Session

/-! ## The journal -/

namespace Journal

/-- A request to change the log. -/
inductive Change where
  /-- Leaves it as it is. -/
  | keep
  /-- Sets it up anew, with a file unless the path is empty. -/
  | restart (path : String) (debug : Bool)
  /-- Gets a logger. -/
  | obtain (name : String) (level : Option Int)
  /-- Changes the level of all loggers. -/
  | level (level : Int)
  /-- Switches the screen. -/
  | screen (enabled : Bool)
  /-- Changes the file. -/
  | file (path : String)
deriving DecidableEq, Repr

end Journal

namespace Machine

variable (m : Machine σ)

/-- Hands a line over to its destination. -/
def deliver : Journal.Delivery → Machine σ
  | .screen line => { m with screen := m.screen ++ line }
  | .file place line =>
    { m with workspace := { m.workspace with disk := m.workspace.disk.appendTo place line } }

/-- Makes a note in the log. -/
def tell (note : Note) : Machine σ :=
  (m.journal.deliveries note).foldl deliver m

/-- Makes notes in the log, in order. -/
def tellAll (notes : List Note) : Machine σ :=
  notes.foldl tell m

/-- Replaces the journal and the files. -/
def withLog (journal : Journal) (disk : Disk) : Machine σ :=
  { m with journal := journal, workspace := { m.workspace with disk := disk } }

/-- Changes the log. -/
def changeLog : Journal.Change → Except Fault Unit × Machine σ
  | .keep => (.ok (), m)
  | .restart path debug =>
    let (outcome, journal, disk) :=
      m.journal.restart m.workspace.disk m.workspace.environment path debug
    (outcome, m.withLog journal disk)
  | .obtain name level =>
    let noted := m.journal.obtain name level
    (.ok (), { m with journal := noted.value }.tellAll noted.notes)
  | .level level => (.ok (), { m with journal := m.journal.setLevel level })
  | .screen enabled =>
    (.ok (), { m with journal := m.journal.setScreen m.workspace.environment enabled })
  | .file path =>
    match m.journal.setFile m.workspace.disk path with
    | .ok (journal, disk) => (.ok (), m.withLog journal disk)
    | .error fault => (.error fault, m)

/-- Records an event. -/
def record (event : Event) : Machine σ :=
  { m with trace := event :: m.trace }

/-- Takes other words for those of the handler under way. -/
def given (words : List String) : Machine σ :=
  { m with words := words }

/-- Shows a text on the screen. -/
def display (text : String) : Machine σ :=
  { m with screen := m.screen ++ text }

/-- Writes to the output. -/
def write (text : String) : Machine σ :=
  { m with workspace := { m.workspace with output := m.workspace.output ++ text } }

end Machine

end CommandShell
