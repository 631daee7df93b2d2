import CommandShell.Words

/-!
# Arguments of the program

The program is started with options and the paths of scripts.
-/

namespace CommandShell

/-- What the arguments of the program ask for. -/
structure Arguments where
  /-- The settings file; empty for the default one. -/
  config : String := ""
  /-- Log everything. -/
  debug : Bool := false
  /-- Show the usage and end. -/
  help : Bool := false
  /-- End after the scripts. -/
  batch : Bool := false
  /-- The scripts to run, in order. -/
  scripts : List String := []
  /-- What is wrong with the arguments; empty if nothing is. -/
  error : String := ""
deriving DecidableEq, Repr

namespace Arguments

/-- Reads arguments, after those that `taken` holds already.  Reading ends at the first
argument that is wrong. -/
def parseFrom (taken : Arguments) : List String → Arguments
  | [] => taken
  | word :: rest =>
    if word = "--config" then
      match rest with
      | [] => { taken with error := "--config requires a path" }
      | path :: rest => parseFrom { taken with config := path } rest
    else if word = "--debug" then parseFrom { taken with debug := true } rest
    else if word = "--help" ∨ word = "-h" then parseFrom { taken with help := true } rest
    else if word = "--batch" then parseFrom { taken with batch := true } rest
    else if word = "--" then { taken with scripts := taken.scripts ++ rest }
    else if startsWith "-" word then { taken with error := "Unknown option " ++ word }
    else parseFrom { taken with scripts := taken.scripts ++ [word] } rest

/-- Reads the arguments of the program. -/
def parse (words : List String) : Arguments :=
  parseFrom {} words

/-- How the arguments are written. -/
def usage : String :=
  "Usage: cmdnest [OPTIONS] [SCRIPT...]\n\n"
    ++ "Nested command interpreter. Scripts are run in order, then the\n"
    ++ "interactive prompt starts unless --batch is given.\n\n"
    ++ "Options:\n"
    ++ "  --config PATH   Use this config file instead of the default one\n"
    ++ "  --debug         Enable debug logging\n"
    ++ "  --batch         Exit after running the scripts\n"
    ++ "  --help          Show this message\n"

end Arguments

end CommandShell
