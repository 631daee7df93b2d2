import CommandShell.Store.Register

/-!
# Aliases

An alias is a new keyword for a command: it runs the same handler in the same context
and borrows the command's registry.  A command without a registry gets an empty one,
so that the two share what either gets later.
-/

namespace CommandShell.Store

/-- Makes a new command, registered nowhere. -/
def create (s : Store) (face : Face) : CommandId × Store :=
  s.addCommand { toFace := face }

/-- Adds flags to a command. -/
def addAttributes (s : Store) (c : CommandId) (flags : Int) : Store :=
  let command := s.command c
  s.setCommand c { command with attributes := command.attributes.add flags }

/-- What an alias of a command shows of itself. -/
def aliasFace (face : Face) (keyword : String) : Face :=
  { keyword := keyword
    argHints := face.argHints
    description := "alias for " ++ face.keyword
    attributes :=
      let flags := Attributes.union .aliasFlag .mutableFlag
      if face.attributes.isConstruct then flags.union .constructFlag else flags
    handler := face.handler
    context := face.context }

/-- Makes an alias of a command, registered nowhere. -/
def makeAlias (s : Store) (c : CommandId) (keyword : String) : CommandId × Store :=
  let face := aliasFace (s.command c).toFace keyword
  let (r, s) := s.ensureRegistry c
  s.addCommand { toFace := face, children := some (.borrowed r) }

end CommandShell.Store
