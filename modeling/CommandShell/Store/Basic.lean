import CommandShell.Command

/-!
# The store of commands and registries

All commands and registries live in one store and are never taken out of it: what is
destroyed stays, marked as such.  An identity that was never given out reads as
something destroyed, so every operation is defined on every identity.

## Main definitions

* `Store` — the commands and registries.
* `Store.command`, `Store.registry` — reading.
* `Store.setCommand`, `Store.setRegistry` — writing.
* `Store.addCommand`, `Store.addRegistry` — making new ones.
* `Store.registryOf`, `Store.itemsOf`, `Store.subcommands` — following references.
-/

namespace CommandShell

/-- The commands and registries, by identity. -/
structure Store where
  /-- The commands ever made. -/
  commands : List Command := []
  /-- The registries ever made. -/
  registries : List Registry := []

instance : Inhabited Store := ⟨{}⟩

namespace Store

variable (s : Store)

/-! ## Reading and writing -/

/-- The command of an identity. -/
def command (c : CommandId) : Command :=
  (s.commands[c.index]?).getD .missing

/-- The registry of an identity. -/
def registry (r : RegistryId) : Registry :=
  (s.registries[r.index]?).getD .missing

/-- Replaces a command. -/
def setCommand (c : CommandId) (command : Command) : Store :=
  { s with commands := s.commands.set c.index command }

/-- Replaces a registry. -/
def setRegistry (r : RegistryId) (registry : Registry) : Store :=
  { s with registries := s.registries.set r.index registry }

/-- Adds a command under a new identity. -/
def addCommand (command : Command) : CommandId × Store :=
  (⟨s.commands.length⟩, { s with commands := s.commands ++ [command] })

/-- Adds a registry under a new identity. -/
def addRegistry (registry : Registry) : RegistryId × Store :=
  (⟨s.registries.length⟩, { s with registries := s.registries ++ [registry] })

@[simp] theorem registry_setCommand (c : CommandId) (command : Command) (r : RegistryId) :
    (s.setCommand c command).registry r = s.registry r := rfl

@[simp] theorem command_setRegistry (r : RegistryId) (registry : Registry) (c : CommandId) :
    (s.setRegistry r registry).command c = s.command c := rfl

theorem registry_setRegistry_of_ne {q r : RegistryId} (h : q ≠ r) (registry : Registry) :
    (s.setRegistry r registry).registry q = s.registry q := by
  have : r.index ≠ q.index := fun e => h (by cases q; cases r; simp_all)
  simp [Store.registry, setRegistry, List.getElem?_set_ne this]

/-- A command that is not destroyed is in the store. -/
theorem index_lt_of_live {c : CommandId} (h : (s.command c).destroyed = false) :
    c.index < s.commands.length := by
  by_cases hc : c.index < s.commands.length
  · exact hc
  · simp [Store.command, List.getElem?_eq_none (Nat.le_of_not_lt hc), Command.missing] at h

/-! ## Following references -/

/-- The registry of a command's sub-commands, owned or borrowed. -/
def registryOf (c : CommandId) : Option RegistryId :=
  (s.command c).children.map Children.registry

/-- The commands in a registry. -/
def itemsOf (r : RegistryId) : List CommandId :=
  (s.registry r).items

/-- The sub-commands of a command, owned or borrowed. -/
def subcommands (c : CommandId) : List CommandId :=
  ((s.registryOf c).map s.itemsOf).getD []

/-- The keyword of a command. -/
def keyword (c : CommandId) : String :=
  (s.command c).keyword

/-- The first command in a registry with a keyword. -/
def findIn (r : RegistryId) (keyword : String) : Option CommandId :=
  (s.itemsOf r).find? fun item => s.keyword item == keyword

/-- The number of commands that are not destroyed. -/
def liveCount : Nat :=
  s.commands.countP (!·.destroyed)

/-- Destroying a command that is not destroyed leaves one less. -/
theorem liveCount_setCommand_lt {c : CommandId} (h : (s.command c).destroyed = false)
    {command : Command} (hd : command.destroyed = true) :
    (s.setCommand c command).liveCount < s.liveCount := by
  have hc := s.index_lt_of_live h
  have hget : s.command c = s.commands[c.index] := by
    simp [Store.command, List.getElem?_eq_getElem hc]
  have hpos : 0 < s.commands.countP (!·.destroyed) :=
    List.countP_pos_iff.2 ⟨_, List.getElem_mem hc, by simp [← hget, h]⟩
  simp only [liveCount, setCommand, List.countP_set hc, ← hget, h, hd]
  simp only [Bool.not_false, if_true, Bool.not_true, Bool.false_eq_true, if_false]
  omega

@[simp] theorem liveCount_setRegistry (r : RegistryId) (registry : Registry) :
    (s.setRegistry r registry).liveCount = s.liveCount := rfl

end Store

end CommandShell
