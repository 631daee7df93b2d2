import CommandShell.Store.Basic

/-!
# Copies

A copy of a command is a command of its own with copies of the sub-commands that the
first one owns; what the first one borrows, the copy borrows too.

A copy is made in two steps: a *cutting*, which lists what is to be copied as a tree,
and its planting, which gives every part of the tree a new identity.
-/

namespace CommandShell

/-- A command with everything it owns, as a tree. -/
inductive Cutting where
  /-- The command has no registry. -/
  | bare (face : Face)
  /-- The command borrows a registry. -/
  | borrowing (face : Face) (r : RegistryId)
  /-- The command owns a registry with these commands. -/
  | owning (face : Face) (items : List Cutting)

namespace Store

/-- The cutting of a command, at most `levels` registries deep. -/
def cuttingWithin (s : Store) : Nat → CommandId → Cutting
  | levels, c =>
    let command := s.command c
    match command.children with
    | none => .bare command.toFace
    | some (.borrowed r) => .borrowing command.toFace r
    | some (.owned r) =>
      match levels with
      | 0 => .owning command.toFace []
      | levels + 1 => .owning command.toFace ((s.itemsOf r).map (cuttingWithin s levels))

/-- The cutting of a command.  A path that meets no registry twice is at most as long
as there are registries. -/
def cutting (s : Store) (c : CommandId) : Cutting :=
  s.cuttingWithin s.registries.length c

mutual

/-- Puts a cutting into the store, every command and registry of it new. -/
def plant (s : Store) : Cutting → CommandId × Store
  | .bare face => s.addCommand { toFace := face }
  | .borrowing face r => s.addCommand { toFace := face, children := some (.borrowed r) }
  | .owning face items =>
    let (ids, s) := plantAll s items
    let (r, s) := s.addRegistry { items := ids }
    s.addCommand { toFace := face, children := some (.owned r) }

/-- Puts cuttings into the store one after another. -/
def plantAll (s : Store) : List Cutting → List CommandId × Store
  | [] => ([], s)
  | cutting :: rest =>
    let (c, s) := plant s cutting
    let (ids, s) := plantAll s rest
    (c :: ids, s)

end

/-- A copy of a command with copies of all it owns. -/
def copy (s : Store) (c : CommandId) : CommandId × Store :=
  s.plant (s.cutting c)

/-- A new registry with copies of the commands of another. -/
def copyRegistry (s : Store) (r : RegistryId) : RegistryId × Store :=
  let (ids, s) := s.plantAll ((s.itemsOf r).map s.cutting)
  s.addRegistry { items := ids }

end Store

end CommandShell
