import CommandShell.Fault
import CommandShell.Store.Destroy
import CommandShell.Store.Reach

/-!
# Registering commands

A command is registered under another if its keyword is not empty and not taken
there, it is not destroyed, and no cycle would arise.  Unregistering destroys the
command.  A registry is made for a command only when the first sub-command comes.
-/

namespace CommandShell.Store

/-- Adds a command at the end of a registry, unless the registry is destroyed. -/
def append (s : Store) (r : RegistryId) (c : CommandId) : Noted (Bool × Store) :=
  let registry := s.registry r
  if registry.destroyed then do
    Noted.say Channel.registry Level.error
      ("Cannot add '" ++ s.keyword c ++ "' to a destroyed registry")
    return (false, s)
  else return (true, s.setRegistry r { registry with items := registry.items ++ [c] })

/-- The registry of a command's sub-commands; a command without one gets its own. -/
def ensureRegistry (s : Store) (c : CommandId) : RegistryId × Store :=
  match s.registryOf c with
  | some r => (r, s)
  | none =>
    let (r, s) := s.addRegistry {}
    (r, s.setCommand c { s.command c with children := some (.owned r) })

/-- Registers `child` under `parent`, if nothing speaks against it. -/
def register (s : Store) (parent child : CommandId) : Noted (Bool × Store) :=
  let keyword := s.keyword child
  if keyword.isEmpty then
    refuse s ("Cannot register a command without keyword under " ++ Text.quoted (s.keyword parent))
  else if (s.command child).destroyed then
    refuse s ("Cannot register destroyed command " ++ Text.quoted keyword)
  else
    let (r, s) := s.ensureRegistry parent
    if child = parent ∨ s.reaches child r then
      refuse s ("Registering " ++ Text.quoted keyword ++ " under "
        ++ Text.quoted (s.keyword parent) ++ " would create a cycle")
    else if (s.findIn r keyword).isSome then
      refuse s ("Command '" ++ keyword ++ "' already registered")
    else s.append r child
where
  refuse (s : Store) (reason : String) : Noted (Bool × Store) := do
    Noted.say Channel.command Level.error reason
    return (false, s)

/-- The position of a command in a registry. -/
def position? (s : Store) (r : RegistryId) (c : CommandId) : Option Nat :=
  (s.itemsOf r).findIdx? (· == c)

/-- Takes the command at a position out of a registry and destroys it. -/
def removeAt (s : Store) (r : RegistryId) (position : Nat) (c : CommandId) : Noted Store :=
  let registry := s.registry r
  (s.setRegistry r { registry with items := registry.items.eraseIdx position }).destroy c

/-- Takes a command out of a registry and destroys it. -/
def remove (s : Store) (r : RegistryId) (c : CommandId) : Noted (Except Fault Store) :=
  match s.position? r c with
  | none => return .error (.notRegistered (s.command c).text)
  | some position => do return .ok (← s.removeAt r position c)

/-- Takes the sub-command with the keyword of `child` out of the registry of `parent`
and destroys it. -/
def unregister (s : Store) (parent child : CommandId) : Noted (Bool × Store) :=
  let keyword := s.keyword child
  let found := (s.registryOf parent).bind fun r =>
    (s.findIn r keyword).bind fun c => (s.position? r c).map fun position => (r, position, c)
  match found with
  | some (r, position, c) => do return (true, ← s.removeAt r position c)
  | none => do
    Noted.say Channel.command Level.error ("Command '" ++ keyword ++ "' not found")
    return (false, s)

/-- Removes the given commands from a registry one after another; ends at the first
that is no longer there. -/
def removeEach (s : Store) (r : RegistryId) : List CommandId → Noted (Except Fault Unit × Store)
  | [] => return (.ok (), s)
  | c :: rest => do
    match ← s.remove r c with
    | .error fault => return (.error fault, s)
    | .ok s => s.removeEach r rest

end CommandShell.Store
