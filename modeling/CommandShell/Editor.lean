import CommandShell.Hint
import CommandShell.Loop
import CommandShell.Shell

/-!
# Line editing

While a line is typed, a line editor offers the completions of the word at the cursor
and shows the hints of the command that was typed.  What the user enters is kept in a
history, in a file if one can be made.

## Main definitions

* `Insertion`, `Store.insertions` — what may be inserted at the cursor.
* `Fragment`, `Store.hintFragments`, `Store.decorate` — what is shown after a line.
* `History`, `Routine.openConsole` — where lines are kept.
-/

namespace CommandShell

/-! ## Completions -/

/-- A text that may replace the end of what was typed. -/
structure Insertion where
  /-- The text. -/
  text : String
  /-- Where what it replaces starts, counted back from the cursor. -/
  start : Int
  /-- How it is listed. -/
  label : String
deriving DecidableEq, Repr

/-- What may be inserted after the text before the cursor.  It replaces the text from the start of
the word being completed on. -/
def Store.insertions (s : Store) (shell : Shell) (text : String) :
    Noted (Except Fault (List Insertion)) := do
  match ← s.complete shell.rules shell.root text with
  | none => return .ok []
  | some completion =>
    let word? := (spans shell.rules.delimiters text)[completion.resolution.nest]?
    let start := word?.elim text.length Span.start
    return completion.found.keywords.mapM fun keyword =>
      (Store.ended shell.rules keyword).map fun inserted =>
        ⟨inserted, Int.ofNat start - Int.ofNat text.length, keyword⟩

/-! ## Hints -/

/-- A piece of text with its style. -/
structure Fragment where
  /-- The style. -/
  style : String
  /-- The text. -/
  text : String
deriving DecidableEq, Repr

/-- The style of hints. -/
def hintStyle : String := "class:hint"

/-- The hint after a text, as a piece of its own. -/
def Store.hintFragments (s : Store) (shell : Shell) (text : String) : Noted (List Fragment) := do
  match ← s.hintFor shell.rules shell.root text with
  | none => return []
  | some hint => return if hint.isEmpty then [] else [⟨hintStyle, hint⟩]

/-- The number of the last line of a text. -/
def lastLine (text : String) : Nat :=
  text.toList.count '\n'

/-- What is shown of a line of the text being edited: the hint follows the last one. -/
def Store.decorate (s : Store) (shell : Shell) (text : String) (shown : List Fragment)
    (line : Int) : Noted (List Fragment) := do
  if line = lastLine text then return shown ++ (← s.hintFragments shell text)
  else return shown

/-! ## The console -/

/-- Where the lines that a user enters are kept. -/
inductive History where
  /-- Nowhere after the run. -/
  | memory
  /-- In a file. -/
  | file (path : String)
deriving DecidableEq, Repr

namespace Routine

variable {σ : Type}

/-- Gets the logger of the console. -/
def obtainConsole : Routine σ Unit := do
  let _ ← changeLog (.obtain Channel.console none)

/-- Opens the history; the directory of its file is made.  Without a path, and where
the directory cannot be made, lines are only kept in memory. -/
def openHistory (path : String) : Routine σ History := do
  if path.isEmpty then return .memory
  let w ← workspace
  let path ← ofExcept (w.environment.expandHome (Path.clean path))
  let (made, disk) := w.disk.makeDirectories (Path.parent path)
  modify fun w => { w with disk := disk }
  match made with
  | .ok () => return .file path
  | .error fault =>
    if fault.isFileTrouble then
      say Channel.console Level.warning
        ("Cannot create " ++ Path.parent path ++ ", history will not be saved: "
          ++ fault.message)
      return .memory
    else raise fault

/-- Opens the console, with the history at a path. -/
def openConsole (path : String) : Routine σ History := do
  obtainConsole
  openHistory path

end Routine

end CommandShell
