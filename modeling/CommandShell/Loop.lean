import CommandShell.Script

/-!
# The interactive loop

Lines are read one after another and dispatched, until the input ends or a command
stops the loop.  A line editor delivers lines, interrupts and the end of input; an
interrupt counts as an empty line.
-/

namespace CommandShell

/-- What a line editor delivers. -/
inductive Input where
  /-- A line. -/
  | line (text : String)
  /-- The user gave the line up. -/
  | interrupt
  /-- The user ended the input. -/
  | endOfInput
deriving DecidableEq, Repr

/-- The line that is read, or nothing at the end of input. -/
def Input.line? : Input → Option String
  | line text => some text
  | interrupt => some ""
  | endOfInput => none

/-- How a loop went. -/
structure LoopReport where
  /-- The status it ended with. -/
  status : Int
  /-- How often a line was asked for. -/
  reads : Nat
  /-- What was not read. -/
  left : List Input
deriving DecidableEq, Repr

namespace Routine

variable {σ : Type}

/-- Dispatches a line that was read. -/
def turn (line : String) : Routine σ Unit := do
  say Channel.interpreter Level.debug ("line: " ++ line)
  let status ← dispatchLine line
  say Channel.interpreter Level.info (resultText line status)

/-- Takes note that there are no more lines. -/
def endInput : Routine σ Unit :=
  say Channel.interpreter Level.debug "End of input"

/-- Reads and dispatches lines; `reads` counts those asked for before.  Where nothing
is left to read, the input has ended. -/
def loopFrom (reads : Nat) : List Input → Routine σ LoopReport
  | [] => do
    if (← workspace).stopped then return ⟨Status.success, reads, []⟩
    endInput
    return ⟨Status.success, reads + 1, []⟩
  | input :: rest => do
    if (← workspace).stopped then return ⟨Status.success, reads, input :: rest⟩
    match input.line? with
    | none =>
      endInput
      return ⟨Status.success, reads + 1, rest⟩
    | some line =>
      turn line
      loopFrom (reads + 1) rest

/-- Reads and dispatches lines until the input ends or the loop is stopped. -/
def loop (inputs : List Input) : Routine σ LoopReport :=
  loopFrom 0 inputs

end Routine

end CommandShell
