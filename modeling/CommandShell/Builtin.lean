import CommandShell.Help
import CommandShell.Script
import CommandShell.Shell
import CommandShell.Store.Alias
import CommandShell.Store.Lookup

/-!
# Built-in commands

The commands that every shell starts with: help, aliases, control of the log, scripts,
and leaving the loop.  Those of the top level are given the interpreter as their context;
where an application registers one of them with another context, it fails as soon as it
needs the interpreter.

## Main definitions

* `Builtin.routine` — what each built-in command does.
* `registerBuiltins` — puts them under the top.
-/

namespace CommandShell

namespace Builtin

variable {σ : Type}

/-- A note of the built-in commands. -/
def say (level : Int) (message : String) : Routine σ Unit :=
  Routine.say Channel.builtins level message

/-- Complains about the arguments. -/
def complain (message : String) : Routine σ Int := do
  say Level.error message
  return Status.error

/-- Goes on if a command was given the interpreter; otherwise it fails, for want of what it asks
the interpreter for. -/
def within (context : Context) (feature : String) (next : Routine σ Int) : Routine σ Int :=
  match context with
  | .interpreter => next
  | .value v => .raise (.lacking v.kind feature)

/-- A sub-command by keyword. -/
def find (c : CommandId) (keyword : String) : Routine σ (Option CommandId) := do
  Routine.noted ((← Routine.store).find c keyword)

/-- Shows every command. -/
def helpRoutine (shell : Shell) : Routine σ Int := do
  Routine.write ((← Routine.store).renderHelp shell.root)
  return Status.success

/-- Registers the command `target` again at the top level, under the keyword `new`. -/
def aliasRoutine (shell : Shell) (new target : String) : Routine σ Int := do
  match ← find shell.root target with
  | none =>
    say Level.warning ("Command " ++ target ++ " not found")
    return Status.notFound
  | some c =>
    let made ← Routine.onStore fun s => return s.makeAlias c new
    if ← Routine.onStore fun s => s.register shell.root made then return Status.success
    say Level.error ("Failed to register alias " ++ new ++ " to " ++ target)
    Routine.onStore fun s => return ((), ← s.destroy made)
    return Status.rejected

/-- Removes the alias `keyword` from the top level. -/
def unaliasRoutine (shell : Shell) (keyword : String) : Routine σ Int := do
  match ← find shell.root keyword with
  | none =>
    say Level.warning ("Command " ++ keyword ++ " not found")
    return Status.notFound
  | some c =>
    let command := (← Routine.store).command c
    if !command.attributes.isAlias then
      Routine.write ("error: " ++ command.keyword ++ " is not an alias\n")
      return Status.rejected
    if ← Routine.onStore fun s => s.unregister shell.root c then return Status.success
    Routine.write ("error: unregister(" ++ keyword ++ ") failed\n")
    return Status.failed

/-- Runs the sub-command that a word names. -/
def logRoutine (c : CommandId) (keyword : String) : Routine σ Int := do
  match ← find c keyword with
  | none =>
    say Level.warning ("Sub-command " ++ keyword ++ " not found")
    return Status.notFound
  | some sub => Routine.handOver sub

/-- Changes the level of the log. -/
def levelRoutine (word : String) : Routine σ Int := do
  match Level.parse? word with
  | none =>
    complain ("Invalid log level " ++ word ++ ", expected 0.."
      ++ toString (Level.ranked.length - 1) ++ " or a level name")
  | some level =>
    say Level.info ("Setting log level to " ++ Level.name level)
    let _ ← Routine.changeLog (.level level)
    return Status.success

/-- Switches the log on the screen. -/
def screenRoutine (word : String) : Routine σ Int := do
  let enabled := Value.isOnText word
  say Level.info ("Setting log stdout to " ++ if enabled then "true" else "false")
  let _ ← Routine.changeLog (.screen enabled)
  return Status.success

/-- Changes the log file. -/
def fileRoutine (path : String) : Routine σ Int := do
  say Level.info ("Setting log file path to " ++ path)
  Routine.logging (.file path) fun
    | .ok _ => return Status.success
    | .error fault =>
      if fault.isFileTrouble then do
        say Level.error ("Could not open log file " ++ path ++ ": " ++ fault.message)
        return Status.failed
      else .raise fault

/-- Runs a script.  It is opened before the interpreter is needed. -/
def sourceRoutine (context : Context) (path : String) : Routine σ Int :=
  match context with
  | .interpreter => Routine.runScript path
  | .value v => Routine.failScript path (.lacking v.kind "dispatch")

/-- Ends the loop. -/
def quitRoutine : Routine σ Int := do
  Routine.modify fun w => { w with stopped := true }
  return Status.success

/-- What a built-in command does when it is called. -/
def routine (shell : Shell) (call : Call) : Builtin → Routine σ Int
  | help => within call.context "write" (helpRoutine shell)
  | makeAlias =>
    match call.args with
    | _ :: new :: target :: _ => within call.context "commands" (aliasRoutine shell new target)
    | _ => complain "Expected new and original keyword for alias"
  | dropAlias =>
    match call.args with
    | _ :: keyword :: _ => within call.context "commands" (unaliasRoutine shell keyword)
    | _ => complain "Expected keyword to unalias"
  | log =>
    match call.args with
    | _ :: keyword :: _ => logRoutine call.command keyword
    | _ => complain "Not enough arguments for log command"
  | logLevel =>
    match call.args with
    | _ :: word :: _ => levelRoutine word
    | _ => complain "Expected a numeric argument for level"
  | logScreen =>
    match call.args with
    | _ :: word :: _ => screenRoutine word
    | _ => complain "Expected a boolean flag"
  | logFile =>
    match call.args with
    | _ :: path :: _ => fileRoutine path
    | _ => complain "Expected a file path argument"
  | source =>
    match call.args with
    | _ :: path :: _ => sourceRoutine call.context path
    | _ => complain "Expected a file path argument"
  | quit => within call.context "quit" quitRoutine

end Builtin

/-! ## Registration -/

/-- What a built-in command shows of itself. -/
def builtinFace (keyword argHints description : String) (b : Builtin) (context : Context) : Face :=
  { keyword := keyword, argHints := argHints, description := description,
    handler := some (.builtin b), context := context }

/-- The built-in commands of the top level, in order. -/
def builtinFaces : List Face :=
  [builtinFace "help" "" "show a list of commands with hints and description" .help .interpreter,
    builtinFace "alias" " <alias-keyword> <original-keyword>"
      "alias one command keyword to another" .makeAlias .interpreter,
    builtinFace "unalias" " <alias-keyword>" "unregister a command alias" .dropAlias .interpreter,
    builtinFace "log" " <logcmd> <...>" "change logger options" .log .interpreter,
    builtinFace "source" " <path>" "load and run a command script" .source .interpreter,
    builtinFace "quit" "" "exit the command handling loop" .quit .interpreter]

/-- The sub-commands of the command that controls the log, in order. -/
def logFaces : List Face :=
  [builtinFace "level" " <0..5>" "change the log message level (0=VERBOSE, 5=CRITICAL)" .logLevel
      (.value .null),
    builtinFace "stdout" " <true/false>" "enable or disable logging to the screen" .logScreen
      (.value .null),
    builtinFace "file" " <path>" "change the log file path" .logFile (.value .null)]

/-- Makes commands and registers them under a parent; tells whether all could be. -/
def registerAll (s : Store) (parent : CommandId) : List Face → Noted (Bool × Store)
  | [] => return (true, s)
  | face :: rest => do
    let (c, s) := s.create face
    let (first, s) ← s.register parent c
    let (others, s) ← registerAll s parent rest
    return (first && others, s)

/-- Makes the given commands and registers them under the top, the command for the log
with its sub-commands. -/
def registerTop (s : Store) (root : CommandId) : List Face → Noted (Bool × Store)
  | [] => return (true, s)
  | face :: rest => do
    let (c, s) := s.create face
    let (first, s) ← s.register root c
    let (below, s) ← registerAll s c (if face.keyword = "log" then logFaces else [])
    let (others, s) ← registerTop s root rest
    return (first && below && others, s)

/-- Registers the built-in commands under the top; tells whether all could be. -/
def registerBuiltins (root : CommandId) (s : Store) : Noted (Bool × Store) :=
  registerTop s root builtinFaces

end CommandShell
