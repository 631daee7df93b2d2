import CommandShell.Launch.Report
import CommandShell.Machine

/-!
# Routines

A routine is what a handler does: finitely many steps, each of which looks at the
workspace, changes it or the words that it was given, makes a note, calls back into the
interpreter, or runs a whole program beside it.  It is a tree of such steps, so a routine
always comes to an end by itself; only the calls that it makes may lead further.

Handlers are given to the interpreter as routines, and so are the built-in commands.

## Main definitions

* `Routine` — the steps.
* `Reentry` — what the interpreter offers to be called back.
* `Routine.run` — carries a routine out.
* `Handlers` — the handlers of an application.
-/

namespace CommandShell

/-- The steps of a handler with an answer of type `ρ`; `σ` is the application's state. -/
inductive Routine (σ ρ : Type) where
  /-- Ends with an answer. -/
  | done (r : ρ)
  /-- Ends with a failure. -/
  | raise (fault : Fault)
  /-- Looks at the workspace. -/
  | look (next : Workspace σ → Routine σ ρ)
  /-- Replaces the workspace. -/
  | put (w : Workspace σ) (next : Routine σ ρ)
  /-- Replaces the words that the handler was given. -/
  | rewrite (words : List String) (next : Routine σ ρ)
  /-- Makes a note. -/
  | tell (note : Note) (next : Routine σ ρ)
  /-- Changes the log, and is shown what came of it. -/
  | logging (change : Journal.Change) (next : Except Fault Journal → Routine σ ρ)
  /-- Asks for the depth of nested dispatches. -/
  | depth (next : Nat → Routine σ ρ)
  /-- Leaves a remark in the trace. -/
  | remark (text : String) (next : Routine σ ρ)
  /-- Dispatches a line. -/
  | dispatch (line : String) (next : Except Fault Int → Routine σ ρ)
  /-- Calls a command with some words, and is shown what has become of them. -/
  | exec (c : CommandId) (args : List String)
    (next : Except Fault Int → List String → Routine σ ρ)
  /-- Calls a command with the words of this call but the first. -/
  | delegate (c : CommandId) (next : Except Fault Int → Routine σ ρ)
  /-- Runs a program on this machine, apart from the tree. -/
  | launch (program : Session σ LaunchReport) (next : Except Fault LaunchReport → Routine σ ρ)

namespace Routine

variable {σ ρ τ α : Type}

/-! ## Composition -/

/-- One routine after another. -/
def bind : Routine σ ρ → (ρ → Routine σ τ) → Routine σ τ
  | done r, f => f r
  | raise fault, _ => raise fault
  | look next, f => look fun w => (next w).bind f
  | put w next, f => put w (next.bind f)
  | rewrite words next, f => rewrite words (next.bind f)
  | tell note next, f => tell note (next.bind f)
  | logging change next, f => logging change fun outcome => (next outcome).bind f
  | depth next, f => depth fun n => (next n).bind f
  | remark text next, f => remark text (next.bind f)
  | dispatch line next, f => dispatch line fun outcome => (next outcome).bind f
  | exec c args next, f => exec c args fun outcome left => (next outcome left).bind f
  | delegate c next, f => delegate c fun outcome => (next outcome).bind f
  | launch program next, f => launch program fun outcome => (next outcome).bind f

instance : Monad (Routine σ) where
  pure := done
  bind := bind

/-- An outcome as a routine. -/
def ofExcept : Except Fault ρ → Routine σ ρ
  | .ok r => done r
  | .error fault => raise fault

/-- The workspace. -/
def workspace : Routine σ (Workspace σ) := look done

/-- The store. -/
def store : Routine σ Store := look fun w => done w.store

/-- Changes the workspace. -/
def modify (f : Workspace σ → Workspace σ) : Routine σ Unit :=
  look fun w => put (f w) (done ())

/-- Replaces the store. -/
def setStore (s : Store) : Routine σ Unit := modify fun w => { w with store := s }

/-- Writes to the output. -/
def write (text : String) : Routine σ Unit :=
  modify fun w => { w with output := w.output ++ text }

/-- Makes a note. -/
def say (channel : String) (level : Int) (message : String) : Routine σ Unit :=
  tell ⟨channel, level, message, none⟩ (done ())

/-- Makes notes in order, then goes on. -/
def tellAll (notes : List Note) (next : Routine σ ρ) : Routine σ ρ :=
  notes.foldr tell next

/-- An answer whose notes are made. -/
def noted (x : Noted ρ) : Routine σ ρ := tellAll x.notes (done x.value)

/-- An operation on the store, whose notes are made. -/
def onStore (f : Store → Noted (ρ × Store)) : Routine σ ρ := do
  let (r, s) ← noted (f (← store))
  setStore s
  return r

/-- Changes the log. -/
def changeLog (change : Journal.Change) : Routine σ Journal := logging change ofExcept

/-- Dispatches a line; a failure is passed on. -/
def dispatchLine (line : String) : Routine σ Int := dispatch line ofExcept

/-- Calls a command; a failure is passed on. -/
def call (c : CommandId) (args : List String) : Routine σ Int :=
  exec c args fun outcome _ => ofExcept outcome

/-- Calls a command with the words of this call but the first; a failure is passed on. -/
def handOver (c : CommandId) : Routine σ Int := delegate c ofExcept

/-- Runs a program; a failure is passed on. -/
def runProgram (program : Session σ LaunchReport) : Routine σ LaunchReport :=
  launch program ofExcept

end Routine

/-! ## Carrying a routine out -/

/-- What the interpreter offers a routine to call. -/
structure Reentry (σ : Type) where
  /-- Dispatches a line. -/
  dispatch : String → Session σ Int
  /-- Calls a command with some words. -/
  exec : CommandId → List String → Session σ Int
  /-- Calls a command with the words of the current call but the first. -/
  delegate : CommandId → Session σ Int

/-- Carries a routine out, step by step.  A command that it calls works on words of its own; when
the routine goes on, its words are what they were. -/
def Routine.run {σ ρ : Type} (re : Reentry σ) : Routine σ ρ → Session σ ρ
  | .done r => fun m => (.ok r, m)
  | .raise fault => fun m => (.error fault, m)
  | .look next => fun m => (next m.workspace).run re m
  | .put w next => fun m => next.run re { m with workspace := w }
  | .rewrite words next => fun m => next.run re (m.given words)
  | .tell note next => fun m => next.run re (m.tell note)
  | .logging change next => fun m =>
    match m.changeLog change with
    | (.ok (), m) => (next (.ok m.journal)).run re m
    | (.error fault, m) => (next (.error fault)).run re m
  | .depth next => fun m => (next m.depth).run re m
  | .remark text next => fun m => next.run re (m.record (.remark text))
  | .dispatch line next => fun m =>
    match re.dispatch line m with
    | (outcome, m) => (next outcome).run re m
  | .exec c args next => fun m =>
    match re.exec c args (m.given args) with
    | (outcome, after) => (next outcome after.words).run re (after.given m.words)
  | .delegate c next => fun m =>
    match re.delegate c m with
    | (outcome, after) => (next outcome).run re (after.given m.words)
  | .launch program next => fun m =>
    match program.apart m with
    | (outcome, m) => (next outcome).run re m

/-- The handlers of an application, by name. -/
abbrev Handlers (σ : Type) := String → Call → Routine σ Int

end CommandShell
