import CommandShell.Store.Basic

/-!
# Reaching a registry

Before a command is registered, the shell makes sure that it does not already lead
to the registry it is to join; otherwise the tree would become cyclic.  The search
follows owned and borrowed references alike and visits every registry once, so it
ends also where a cycle exists.
-/

namespace CommandShell.Store

variable (s : Store)

/-- Whether one of the `pending` commands leads to `target`, through registries that
are `unvisited` only. -/
def searchFor (target : RegistryId) (unvisited : List RegistryId) (pending : List CommandId) :
    Bool :=
  match pending with
  | [] => false
  | c :: rest =>
    match s.registryOf c with
    | none => searchFor target unvisited rest
    | some r =>
      if r ∈ unvisited then
        if r = target then true
        else searchFor target (unvisited.erase r) (s.itemsOf r ++ rest)
      else searchFor target unvisited rest
termination_by (unvisited.length, pending.length)
decreasing_by
  · exact Prod.Lex.right _ (by simp)
  · rename_i h _
    refine Prod.Lex.left _ _ ?_
    have := List.length_pos_of_mem h
    rw [List.length_erase_of_mem h]
    omega
  · exact Prod.Lex.right _ (by simp)

/-- Every registry of the store. -/
def allRegistries : List RegistryId :=
  (List.range s.registries.length).map RegistryId.mk

/-- The registry belongs to the command or to one that can be reached from it through
the registries of sub-commands. -/
def reaches (c : CommandId) (r : RegistryId) : Bool :=
  s.searchFor r s.allRegistries [c]

end CommandShell.Store
