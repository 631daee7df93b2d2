import CommandShell.Note
import CommandShell.Store.Basic

/-!
# Destroying commands

Destroying a command destroys the sub-commands it owns, and theirs in turn; borrowed
ones are left alone.  What is destroyed is marked before its sub-commands are
visited, so the walk ends on every store, cyclic ones included: each command can
only be marked once.
-/

namespace CommandShell.Store

/-- Empties a registry for good. -/
def closeRegistry (s : Store) (r : RegistryId) : Store :=
  s.setRegistry r { items := [], destroyed := true }

/-- Destroys the `pending` commands in order, each with the sub-commands it owns.  One
that is destroyed already, be it from before or on the way here, is only reported. -/
def destroyAll (s : Store) (pending : List CommandId) : Noted Store :=
  match pending with
  | [] => return s
  | c :: rest =>
    if (s.command c).destroyed then do
      Noted.say Channel.command Level.warning
        ("attempt to early or double-destroy " ++ (s.command c).text)
      destroyAll s rest
    else
      match (s.command c).children with
      | some (.owned r) =>
        if (s.registry r).destroyed then do
          Noted.say Channel.registry Level.warning "attempt to double-destroy a command registry"
          destroyAll (s.setCommand c (s.command c).destroy) rest
        else
          destroyAll ((s.setCommand c (s.command c).destroy).closeRegistry r)
            (s.itemsOf r ++ rest)
      | _ => destroyAll (s.setCommand c (s.command c).destroy) rest
termination_by (s.liveCount, pending.length)
decreasing_by
  · exact Prod.Lex.right _ (by simp)
  · exact Prod.Lex.left _ _ (s.liveCount_setCommand_lt (by simp_all) rfl)
  · exact Prod.Lex.left _ _ (s.liveCount_setCommand_lt (by simp_all) rfl)
  · exact Prod.Lex.left _ _ (s.liveCount_setCommand_lt (by simp_all) rfl)

/-- Destroys a command and the sub-commands it owns. -/
def destroy (s : Store) (c : CommandId) : Noted Store :=
  s.destroyAll [c]

/-- Destroys a registry and every command it still holds. -/
def destroyRegistry (s : Store) (r : RegistryId) : Noted Store :=
  if (s.registry r).destroyed then do
    Noted.say Channel.registry Level.warning "attempt to double-destroy a command registry"
    return s
  else (s.closeRegistry r).destroyAll (s.itemsOf r)

end CommandShell.Store
