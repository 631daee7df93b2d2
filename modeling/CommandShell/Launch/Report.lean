/-!
# How a program went

A program tells the system how it ended, and those who watch it what its console was
opened with and asked.
-/

namespace CommandShell

/-- How the program ends. -/
inductive ExitCode where
  /-- All is well. -/
  | success
  /-- The arguments are wrong. -/
  | usageError
  /-- The settings cannot be used. -/
  | configError
  /-- A script failed. -/
  | scriptError
deriving DecidableEq, Repr

/-- The number that the system is given. -/
def ExitCode.code : ExitCode → Nat
  | success => 0
  | usageError => 1
  | configError => 2
  | scriptError => 3

/-- What a console was opened with, and what it asked. -/
structure ConsoleReport where
  /-- The history file. -/
  historyFile : String
  /-- The prompt of each line that was asked for. -/
  prompts : List String
deriving DecidableEq, Repr

/-- How a run of the program went. -/
structure LaunchReport where
  /-- How it ended. -/
  exit : ExitCode
  /-- The console, if one was opened. -/
  console : Option ConsoleReport := none
deriving DecidableEq, Repr

end CommandShell
