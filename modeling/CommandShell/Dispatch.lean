import CommandShell.Builtin

/-!
# Dispatch

A line is dispatched by calling the command that its first word names.  Handlers may
dispatch further lines; how deeply this nests is limited.  Whatever ordinary way a
handler fails in, the dispatch answers with a status, and notes which words it was that
failed; only an abort gets through, and the failure of a handler that left none of its
words, so that there is nothing to name it by.

The recursion is on what is left of the limit: a dispatch at depth `d` leaves its
handlers `maxDepth - d - 1` further levels.  A handler that calls commands directly,
without a dispatch between, is limited in a coarser way: `callLimit` such calls may be
nested.

## Main definitions

* `Interpreter` — a shell with the handlers of an application.
* `Interpreter.call` — calls a command.
* `Interpreter.dispatch` — dispatches a line.
* `Interpreter.perform` — carries out a routine from outside.
-/

namespace CommandShell

/-- A shell with the handlers of an application. -/
structure Interpreter (σ : Type) where
  /-- The settings and the top of the tree. -/
  shell : Shell
  /-- The handlers. -/
  handlers : Handlers σ

/-- How many direct calls of commands may be nested. -/
def callLimit : Nat := 1000

namespace Interpreter

variable {σ ρ : Type} (I : Interpreter σ)

/-! ## Calling a command -/

/-- What runs when a handler is called. -/
def routineFor (call : Call) : Routine σ Int :=
  match call.handler with
  | .builtin b => b.routine I.shell call
  | .custom name => I.handlers name call

/-- Calls a command with words.  The call may be handed over to a sub-command, with the
words but the first; the recursion is on the words. -/
def callWith (dispatch : String → Session σ Int) (exec : CommandId → List String → Session σ Int)
    (args : List String) (c : CommandId) : Session σ Int := fun m =>
  let command := m.workspace.store.command c
  match command.handler with
  | none => (.ok 0, m)
  | some handler =>
    let call : Call := ⟨c, command.keyword, handler, command.context, args, m.depth⟩
    let delegate : CommandId → Session σ Int :=
      match args with
      | [] => fun _ => Session.raise .tooManyCalls
      | _ :: rest => callWith dispatch exec rest
    let (outcome, m) :=
      (I.routineFor call).run ⟨dispatch, exec, delegate⟩ ((m.given args).record (.called call))
    (outcome, m.record (.returned call outcome m.words))

/-- Calls a command with words, where at most `nested` more calls may be made from
within. -/
def callAt (dispatch : String → Session σ Int) : Nat → CommandId → List String → Session σ Int
  | 0, c, args => I.callWith dispatch (fun _ _ => Session.raise .tooManyCalls) args c
  | nested + 1, c, args => I.callWith dispatch (callAt dispatch nested) args c

/-! ## Dispatching a line -/

/-- Turns an ordinary failure of a handler into a status, and makes a note of it that shows the
words as the handler left them; without a word there is nothing to show.  Then the words are
those of the handler that dispatched the line. -/
def guarded (own : List String) : Except Fault Int × Machine σ → Except Fault Int × Machine σ
  | (.ok status, m) => (.ok status, m.given own)
  | (.error fault, m) =>
    if fault.isAbort then (.error fault, m.given own)
    else
      match m.words with
      | [] => (.error .noWords, m.given own)
      | word :: rest =>
        (.ok Status.handlerFailed,
          (m.given own).tell ⟨Channel.interpreter, Level.error,
            word ++ "(" ++ ", ".intercalate rest ++ ") failed:",
            some (fault.kind ++ ": " ++ fault.message)⟩)

/-- Calls the command that the first word of a line names. -/
def runLine (dispatch : String → Session σ Int) (line : String) : Session σ Int := fun m =>
  let words := I.shell.rules.tokenize line
  let m := m.tellAll words.notes
  match words.value with
  | [] =>
    (.ok Status.success,
      m.tell ⟨Channel.interpreter, Level.verbose, "Ignoring empty line", none⟩)
  | word :: rest =>
    let found := m.workspace.store.find I.shell.root word
    let m := m.tellAll found.notes
    match found.value with
    | none =>
      (.ok Status.notFound,
        m.tell ⟨Channel.interpreter, Level.warning, "Command " ++ word ++ " not found", none⟩)
    | some c => guarded m.words (I.callAt dispatch callLimit c (word :: rest) m)

/-- Counts one more nested dispatch while a line runs. -/
def nested (line : String) (body : Session σ Int) : Session σ Int := fun m =>
  let m := { m with depth := m.depth + 1 }.record (.entered (m.depth + 1) line)
  let m := m.tell ⟨Channel.interpreter, Level.verbose,
    "depth: " ++ toString m.depth ++ " line: " ++ Text.quoted line, none⟩
  let (outcome, m) := body m
  (outcome, { m.record (.left m.depth line outcome) with depth := m.depth - 1 })

/-- Refuses a line because dispatches are nested too deeply. -/
def refuse : Session σ Int := fun m =>
  (.ok Status.recursionLimit,
    m.tell ⟨Channel.interpreter, Level.error,
      "Maximum recursion depth " ++ toString I.shell.maxDepth ++ " reached", none⟩)

/-- Dispatches a line where `room` dispatches may be nested, this one included. -/
def dispatchWithin : Nat → String → Session σ Int
  | 0, line => nested line I.refuse
  | room + 1, line => nested line (I.runLine (dispatchWithin room) line)

/-- How many dispatches may be nested from a depth on. -/
def room (depth : Nat) : Nat :=
  (I.shell.maxDepth - depth).toNat

/-- Dispatches a line. -/
def dispatch (line : String) : Session σ Int := fun m =>
  I.dispatchWithin (I.room m.depth) line m

/-- Calls a command with words. -/
def call (c : CommandId) (args : List String) : Session σ Int :=
  I.callAt I.dispatch callLimit c args

/-- Carries out a routine from outside. -/
def perform (routine : Routine σ ρ) : Session σ ρ :=
  routine.run ⟨I.dispatch, I.call, fun _ => Session.raise .tooManyCalls⟩

end Interpreter

end CommandShell
