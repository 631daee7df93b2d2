import CommandShell.Command
import CommandShell.Settings
import CommandShell.Words

/-!
# Shells

A shell is a tree of commands, known by its top, together with the settings that tell
how lines are read and how deeply they may nest.
-/

namespace CommandShell

/-- The settings of an interpreter and the top of its tree. -/
structure Shell where
  /-- What the user is asked with. -/
  prompt : String := "> "
  /-- How lines are split. -/
  rules : LineRules := {}
  /-- How deeply dispatches may be nested. -/
  maxDepth : Int := 64
  /-- The command whose sub-commands are the top-level commands. -/
  root : CommandId

namespace Shell

/-- The command at the top: it has neither keyword nor handler. -/
def top : Face := { context := .interpreter }

/-- The delimiters that settings tell; an empty text means the default ones. -/
def delimitersOf (settings : Settings) : String :=
  let given := settings.text "delimiters"
  if given.isEmpty then Schema.defaultDelimiters else given

/-- The shell that settings describe.  Warnings about them go out under `channel`. -/
def ofSettings (channel : String) (settings : Settings) (root : CommandId) :
    Noted (Except Fault Shell) := do
  match ← settings.integer channel "max_depth" 64 with
  | .error fault => return .error fault
  | .ok maxDepth =>
    match ← settings.integer channel "max_args" 32 with
    | .error fault => return .error fault
    | .ok maxWords =>
      return .ok
        { prompt := settings.text "prompt" "> "
          rules :=
            { delimiters := delimitersOf settings
              comment := settings.text "comment" "#"
              maxWords := maxWords }
          maxDepth := maxDepth
          root := root }

end Shell

end CommandShell
