import CommandShell.Routine
import CommandShell.Status
import CommandShell.Text.Lines

/-!
# Scripts

A script is a file of lines, each of which is dispatched with the line feed that ends
it.  A line that fails does not keep the rest from running; the script answers with the
first negative status.

Each line is taken from the file when its turn comes.  So a script to which its own
commands append, such as one that is the log file, goes on with what was appended.  Where
the file cannot be read on, the script ends early with a warning.

## Main definitions

* `scriptLines` — the lines of a file.
* `Routine.runLines` — dispatches lines one after another.
* `Routine.follow` — dispatches the lines of an open file.
* `Routine.runScript` — runs the script at a path.
-/

namespace CommandShell

/-- The lines of a script, read leniently. -/
def scriptLines (octets : List UInt8) : List String :=
  (Text.splitLines octets).map Text.lineText

/-- What comes of reading on in a file. -/
inductive Reading where
  /-- Nothing is left. -/
  | ended
  /-- A line, with the octets that end it. -/
  | line (octets : List UInt8)
  /-- It cannot be read on. -/
  | broken (trouble : FileTrouble)
deriving DecidableEq, Repr

/-- Reads the next line of an open file, from a position on.  Where the file cannot be read on,
a line counts only if its end was seen: a carriage return may not be all of it. -/
def Disk.nextLine (d : Disk) (place : Place) (position : Nat) : Reading :=
  let (octets, trouble?) := d.stream place
  let line := Text.firstLine (octets.drop position)
  match trouble? with
  | none => if line.isEmpty then .ended else .line line
  | some trouble =>
    if line.getLast? = some 10 ∨ position + line.length < octets.length then .line line
    else .broken trouble

/-- What an interpreter says about a line that was dispatched. -/
def resultText (line : String) (status : Int) : String :=
  "Result of dispatch(" ++ line ++ ") is " ++ toString status

/-- The status of a script so far, with that of one more line: the first negative one. -/
def firstFailure (soFar status : Int) : Int :=
  if status < 0 ∧ soFar = Status.success then status else soFar

/-- How many lines a script may gain while it runs.  One that grows with every line that
is read would never end. -/
def growthLimit : Nat := 100000

namespace Routine

variable {σ : Type}

/-- Dispatches a line of a script; `soFar` is the status of those before. -/
def runLine (soFar : Int) (line : String) : Routine σ Int := do
  let status ← dispatchLine line
  say Channel.builtins Level.info (resultText (Text.bare line) status)
  return firstFailure soFar status

/-- Dispatches lines in order; `soFar` is the status of those before. -/
def runLines (soFar : Int) : List String → Routine σ Int
  | [] => done soFar
  | line :: rest => do
    let soFar ← runLine soFar line
    runLines soFar rest

/-- Takes note that a script cannot be read on. -/
def breakOff (path reason : String) : Routine σ Unit :=
  say Channel.builtins Level.warning ("Reading " ++ path ++ " failed: " ++ reason)

/-- Dispatches the lines of a stream; if reading breaks off after them, a warning tells
why. -/
def runStream (path : String) (lines : List String) (breaksOff : Option String) :
    Routine σ Int := do
  let status ← runLines Status.success lines
  match breaksOff with
  | none => return status
  | some reason =>
    breakOff path reason
    return status

/-- Dispatches at most `limit` lines of the file that was opened under a path, from a position
on; `soFar` is the status of those before. -/
def follow (path : String) (place : Place) : (limit position : Nat) → (soFar : Int) → Routine σ Int
  | 0, _, soFar => done soFar
  | limit + 1, position, soFar => do
    match (← workspace).disk.nextLine place position with
    | .ended => return soFar
    | .line line =>
      let soFar ← runLine soFar (Text.lineText line)
      follow path place limit (position + line.length) soFar
    | .broken trouble =>
      breakOff path (FileFault.message ⟨trouble, none⟩)
      return soFar

/-- Opens the script at a path and goes on with it. -/
def openScript (path : String) (next : Disk → Place → Routine σ Int) : Routine σ Int := do
  let disk := (← workspace).disk
  match disk.openForReading (Path.clean path) with
  | .ok place => next disk place
  | .error fault =>
    if fault.isFileTrouble then
      say Channel.builtins Level.error
        ("Could not open " ++ path ++ " for reading: " ++ fault.message)
      return Status.notFound
    else raise fault

/-- Runs the script at a path. -/
def runScript (path : String) : Routine σ Int :=
  openScript path fun disk place =>
    follow path place ((disk.contents place).length + growthLimit) 0 Status.success

/-- Opens the script at a path where no line can be dispatched: the first one fails. -/
def failScript (path : String) (fault : Fault) : Routine σ Int :=
  openScript path fun disk place =>
    match disk.nextLine place 0 with
    | .ended => return Status.success
    | .line _ => raise fault
    | .broken trouble => do
      breakOff path (FileFault.message ⟨trouble, none⟩)
      return Status.success

end Routine

end CommandShell
