/-!
# Statuses

A dispatched line answers with an integer.  Handlers may answer with any; these are
the ones that the shell itself uses.  Negative ones are failures.
-/

namespace CommandShell.Status

/-- All is well. -/
def success : Int := 0

/-- Arguments are missing or wrong. -/
def error : Int := -1

/-- There is no such command, sub-command or file. -/
def notFound : Int := -2

/-- The request is refused. -/
def rejected : Int := -3

/-- An operation failed. -/
def failed : Int := -4

/-- Dispatches are nested too deeply. -/
def recursionLimit : Int := -5

/-- The handler failed. -/
def handlerFailed : Int := -6

end CommandShell.Status
