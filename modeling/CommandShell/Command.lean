import CommandShell.Attributes
import CommandShell.Text.Quoted
import CommandShell.Value

/-!
# Commands

A command is a keyword with argument hints, a description, a handler with its
context, flags, and possibly sub-commands.  Sub-commands stand in a registry.  An
alias has no registry of its own: it borrows the one of the command it was made
from, so that whatever is registered through either is seen through both.  Since
registries are shared, commands refer to them, and registries to their commands, by
identity.
-/

namespace CommandShell

/-- The identity of a command. -/
structure CommandId where
  /-- Its place in the store. -/
  index : Nat
deriving DecidableEq, Repr, Inhabited

/-- The identity of a registry. -/
structure RegistryId where
  /-- Its place in the store. -/
  index : Nat
deriving DecidableEq, Repr, Inhabited

/-- The handlers that the shell brings along. -/
inductive Builtin where
  /-- Shows the help. -/
  | help
  /-- Makes an alias at the top level. -/
  | makeAlias
  /-- Removes one. -/
  | dropAlias
  /-- Runs the sub-command that the next word names. -/
  | log
  /-- Changes the level of the log. -/
  | logLevel
  /-- Switches the log on the screen. -/
  | logScreen
  /-- Changes the log file. -/
  | logFile
  /-- Runs a script. -/
  | source
  /-- Ends the loop. -/
  | quit
deriving DecidableEq, Repr

/-- What runs when a command is called. -/
inductive Handler where
  /-- One of the shell's own handlers. -/
  | builtin (b : Builtin)
  /-- A handler of the application, which knows it by this name. -/
  | custom (name : String)
deriving DecidableEq, Repr

/-- What a handler is given besides the words of the line. -/
inductive Context where
  /-- The interpreter itself. -/
  | interpreter
  /-- A value of the application. -/
  | value (v : Value)

instance : Inhabited Context := ⟨.value .null⟩

/-- What a command shows of itself, apart from its sub-commands. -/
structure Face where
  /-- The word that calls it; empty only at the top. -/
  keyword : String := ""
  /-- Its arguments, conventionally with a leading space. -/
  argHints : String := ""
  /-- One line for the help. -/
  description : String := ""
  /-- Its flags. -/
  attributes : Attributes := {}
  /-- What runs when it is called, if anything. -/
  handler : Option Handler := none
  /-- What the handler is given. -/
  context : Context := .value .null

instance : Inhabited Face := ⟨{}⟩

/-- A reference to the registry of sub-commands. -/
inductive Children where
  /-- The registry is destroyed along with the command. -/
  | owned (r : RegistryId)
  /-- The registry belongs to another command. -/
  | borrowed (r : RegistryId)
deriving DecidableEq, Repr

/-- The registry referred to. -/
def Children.registry : Children → RegistryId
  | owned r => r
  | borrowed r => r

/-- A command of the store. -/
structure Command extends Face where
  /-- Its sub-commands, if it ever had any. -/
  children : Option Children := none
  /-- It has been destroyed. -/
  destroyed : Bool := false

instance : Inhabited Command := ⟨{}⟩

namespace Command

/-- What is left of a command once it is destroyed. -/
def destroy (c : Command) : Command :=
  { c with handler := none, context := .value .null, children := none, destroyed := true }

/-- The command as messages show it. -/
def text (c : Command) : String :=
  "<Command " ++ Text.quoted c.keyword ++ " " ++ c.attributes.text ++ ">"

/-- What stands for a command that was never made. -/
def missing : Command := { destroyed := true }

end Command

/-- The commands of one group of siblings, in the order of registration. -/
structure Registry where
  /-- The commands. -/
  items : List CommandId := []
  /-- It has been destroyed. -/
  destroyed : Bool := false
deriving DecidableEq, Repr, Inhabited

/-- What stands for a registry that was never made. -/
def Registry.missing : Registry := { destroyed := true }

end CommandShell
