import CommandShell.Store.Alias
import Mathlib.Tactic.ByContra
import Mathlib.Tactic.SplitIfs

/-!
# Reading a store after a change

Every operation on commands is made of a few elementary changes of the store: a command
or a registry is added, or one that is there is replaced.  Here is what can be read
after each of them, without conditions: an identity that was never given out reads as
something destroyed before and after.

Most properties of a store are about three readings only: which registry a command
refers to, which commands stand in a registry, and which keyword a command has.
-/

namespace CommandShell

/-! ## Lists with one element added or replaced -/

private theorem getD_concat {α : Type} (xs : List α) (x default : α) (i : Nat) :
    ((xs ++ [x])[i]?).getD default = if i = xs.length then x else (xs[i]?).getD default := by
  rw [List.getElem?_append]
  split_ifs with h₁ h₂ h₂
  · omega
  · rfl
  · simp [h₂]
  · have h₃ : 1 ≤ i - xs.length := by omega
    rw [List.getElem?_eq_none (by simpa using h₃), List.getElem?_eq_none (by omega)]

private theorem getD_set {α : Type} (xs : List α) (x default : α) (i j : Nat) :
    ((xs.set j x)[i]?).getD default =
      if i = j ∧ j < xs.length then x else (xs[i]?).getD default := by
  rw [List.getElem?_set]
  split_ifs with h₁ h₂ h₃ h₃ h₃ <;> simp_all

namespace Store

variable (s : Store)

/-- The identity is that of a command of the store. -/
def HasCommand (c : CommandId) : Prop := c.index < s.commands.length

/-- The identity is that of a registry of the store. -/
def HasRegistry (r : RegistryId) : Prop := r.index < s.registries.length

instance (c : CommandId) : Decidable (s.HasCommand c) := Nat.decLt _ _

instance (r : RegistryId) : Decidable (s.HasRegistry r) := Nat.decLt _ _

/-- The identity that the next command is given. -/
def nextCommand : CommandId := ⟨s.commands.length⟩

/-- The identity that the next registry is given. -/
def nextRegistry : RegistryId := ⟨s.registries.length⟩

theorem not_hasCommand_nextCommand : ¬ s.HasCommand s.nextCommand := Nat.lt_irrefl _

theorem not_hasRegistry_nextRegistry : ¬ s.HasRegistry s.nextRegistry := Nat.lt_irrefl _

/-! ## Commands and registries -/

theorem command_addCommand (x : Command) (c : CommandId) :
    (s.addCommand x).2.command c = if c = s.nextCommand then x else s.command c := by
  obtain ⟨i⟩ := c
  simpa [command, addCommand, nextCommand] using getD_concat s.commands x .missing i

theorem registry_addRegistry (x : Registry) (r : RegistryId) :
    (s.addRegistry x).2.registry r = if r = s.nextRegistry then x else s.registry r := by
  obtain ⟨i⟩ := r
  simpa [registry, addRegistry, nextRegistry] using getD_concat s.registries x .missing i

@[simp] theorem registry_addCommand (x : Command) (r : RegistryId) :
    (s.addCommand x).2.registry r = s.registry r := rfl

@[simp] theorem command_addRegistry (x : Registry) (c : CommandId) :
    (s.addRegistry x).2.command c = s.command c := rfl

theorem command_setCommand (c : CommandId) (x : Command) (d : CommandId) :
    (s.setCommand c x).command d = if d = c ∧ s.HasCommand c then x else s.command d := by
  obtain ⟨i⟩ := d
  obtain ⟨j⟩ := c
  simpa [command, setCommand, HasCommand] using getD_set s.commands x .missing i j

theorem registry_setRegistry (r : RegistryId) (x : Registry) (q : RegistryId) :
    (s.setRegistry r x).registry q = if q = r ∧ s.HasRegistry r then x else s.registry q := by
  obtain ⟨i⟩ := q
  obtain ⟨j⟩ := r
  simpa [registry, setRegistry, HasRegistry] using getD_set s.registries x .missing i j

/-! ## What is not there -/

theorem command_of_not_hasCommand {c : CommandId} (h : ¬ s.HasCommand c) :
    s.command c = .missing := by
  simp [command, List.getElem?_eq_none (Nat.le_of_not_lt h)]

theorem registry_of_not_hasRegistry {r : RegistryId} (h : ¬ s.HasRegistry r) :
    s.registry r = .missing := by
  simp [registry, List.getElem?_eq_none (Nat.le_of_not_lt h)]

theorem hasRegistry_of_mem_itemsOf {r : RegistryId} {c : CommandId} (h : c ∈ s.itemsOf r) :
    s.HasRegistry r := by
  by_contra hr
  simp [itemsOf, s.registry_of_not_hasRegistry hr, Registry.missing] at h

theorem hasRegistry_of_live {r : RegistryId} (h : (s.registry r).destroyed = false) :
    s.HasRegistry r := by
  by_contra hr
  simp [s.registry_of_not_hasRegistry hr, Registry.missing] at h

theorem hasCommand_of_registryOf {c : CommandId} {r : RegistryId} (h : s.registryOf c = some r) :
    s.HasCommand c := by
  by_contra hc
  simp [registryOf, s.command_of_not_hasCommand hc, Command.missing] at h

theorem registryOf_of_children {c : CommandId} {children : Children}
    (h : (s.command c).children = some children) : s.registryOf c = some children.registry := by
  rw [registryOf, h]
  rfl

theorem subcommands_of_registryOf {c : CommandId} {r : RegistryId}
    (h : s.registryOf c = some r) : s.subcommands c = s.itemsOf r := by
  rw [subcommands, h]
  rfl

/-! ## The three readings after each elementary change -/

theorem registryOf_addCommand (x : Command) (c : CommandId) :
    (s.addCommand x).2.registryOf c =
      if c = s.nextCommand then x.children.map Children.registry else s.registryOf c := by
  simp only [registryOf, command_addCommand]
  split_ifs <;> rfl

theorem keyword_addCommand (x : Command) (c : CommandId) :
    (s.addCommand x).2.keyword c = if c = s.nextCommand then x.keyword else s.keyword c := by
  simp only [keyword, command_addCommand]
  split_ifs <;> rfl

@[simp] theorem itemsOf_addCommand (x : Command) (r : RegistryId) :
    (s.addCommand x).2.itemsOf r = s.itemsOf r := rfl

@[simp] theorem registryOf_addAttributes (c : CommandId) (flags : Int) (d : CommandId) :
    (s.addAttributes c flags).registryOf d = s.registryOf d := by
  simp only [registryOf, addAttributes, command_setCommand]
  split_ifs with h
  · rw [h.1]
  · rfl

@[simp] theorem keyword_addAttributes (c : CommandId) (flags : Int) (d : CommandId) :
    (s.addAttributes c flags).keyword d = s.keyword d := by
  simp only [keyword, addAttributes, command_setCommand]
  split_ifs with h
  · rw [h.1]
  · rfl

@[simp] theorem itemsOf_addAttributes (c : CommandId) (flags : Int) (r : RegistryId) :
    (s.addAttributes c flags).itemsOf r = s.itemsOf r := rfl

/-- A command gets an empty registry of its own. -/
def furnish (c : CommandId) : Store :=
  (s.addRegistry {}).2.setCommand c
    { s.command c with children := some (.owned s.nextRegistry) }

theorem ensureRegistry_of_some {c : CommandId} {r : RegistryId} (h : s.registryOf c = some r) :
    s.ensureRegistry c = (r, s) := by
  rw [ensureRegistry, h]

theorem ensureRegistry_of_none {c : CommandId} (h : s.registryOf c = none) :
    s.ensureRegistry c = (s.nextRegistry, s.furnish c) := by
  rw [ensureRegistry, h]
  rfl

theorem registryOf_furnish {c : CommandId} (hc : s.HasCommand c) (d : CommandId) :
    (s.furnish c).registryOf d = if d = c then some s.nextRegistry else s.registryOf d := by
  have hc' : (s.addRegistry {}).2.HasCommand c := hc
  simp only [registryOf, furnish, command_setCommand, hc', and_true, command_addRegistry]
  split_ifs <;> rfl

@[simp] theorem keyword_furnish (c d : CommandId) : (s.furnish c).keyword d = s.keyword d := by
  simp only [keyword, furnish, command_setCommand, command_addRegistry]
  split_ifs with h
  · rw [h.1]
  · rfl

@[simp] theorem itemsOf_furnish (c : CommandId) (r : RegistryId) :
    (s.furnish c).itemsOf r = s.itemsOf r := by
  simp only [itemsOf, furnish, registry_setCommand, registry_addRegistry]
  split_ifs with h
  · rw [h, s.registry_of_not_hasRegistry s.not_hasRegistry_nextRegistry]
    rfl
  · rfl

/-- A command is made together with a registry of its own, which holds `items`. -/
def found (face : Face) (items : List CommandId) : Store :=
  ((s.addRegistry { items := items }).2.addCommand
    { toFace := face, children := some (.owned s.nextRegistry) }).2

theorem registryOf_found (face : Face) (items : List CommandId) (c : CommandId) :
    (s.found face items).registryOf c =
      if c = s.nextCommand then some s.nextRegistry else s.registryOf c := by
  rw [found, registryOf_addCommand]
  rfl

theorem keyword_found (face : Face) (items : List CommandId) (c : CommandId) :
    (s.found face items).keyword c = if c = s.nextCommand then face.keyword else s.keyword c := by
  rw [found, keyword_addCommand]
  rfl

theorem itemsOf_found (face : Face) (items : List CommandId) (r : RegistryId) :
    (s.found face items).itemsOf r = if r = s.nextRegistry then items else s.itemsOf r := by
  simp only [found, itemsOf, registry_addCommand, registry_addRegistry]
  split_ifs <;> rfl

/-- A command joins a registry as its last one. -/
def enlist (r : RegistryId) (c : CommandId) : Store :=
  s.setRegistry r { s.registry r with items := s.itemsOf r ++ [c] }

@[simp] theorem registryOf_enlist (r : RegistryId) (c d : CommandId) :
    (s.enlist r c).registryOf d = s.registryOf d := rfl

@[simp] theorem keyword_enlist (r : RegistryId) (c d : CommandId) :
    (s.enlist r c).keyword d = s.keyword d := rfl

theorem itemsOf_enlist {r : RegistryId} (hr : s.HasRegistry r) (c : CommandId) (q : RegistryId) :
    (s.enlist r c).itemsOf q = if q = r then s.itemsOf r ++ [c] else s.itemsOf q := by
  simp only [itemsOf, enlist, registry_setRegistry, hr, and_true]
  split_ifs <;> rfl

/-- The command at a position leaves a registry. -/
def strike (r : RegistryId) (position : Nat) : Store :=
  s.setRegistry r { s.registry r with items := (s.itemsOf r).eraseIdx position }

@[simp] theorem registryOf_strike (r : RegistryId) (position : Nat) (c : CommandId) :
    (s.strike r position).registryOf c = s.registryOf c := rfl

@[simp] theorem keyword_strike (r : RegistryId) (position : Nat) (c : CommandId) :
    (s.strike r position).keyword c = s.keyword c := rfl

theorem itemsOf_strike (r : RegistryId) (position : Nat) (q : RegistryId) :
    (s.strike r position).itemsOf q =
      if q = r then (s.itemsOf r).eraseIdx position else s.itemsOf q := by
  by_cases hr : s.HasRegistry r
  · simp only [itemsOf, strike, registry_setRegistry, hr, and_true]
    split_ifs <;> rfl
  · have hnone : s.itemsOf r = [] := by
      simp [itemsOf, s.registry_of_not_hasRegistry hr, Registry.missing]
    have hsame : (s.strike r position).itemsOf q = s.itemsOf q := by
      simp [itemsOf, strike, registry_setRegistry, hr]
    rw [hsame]
    split_ifs with hq
    · simp [hq, hnone]
    · rfl

/-- One command is destroyed; the registry that it owns is emptied for good. -/
def bury (c : CommandId) : Store :=
  match (s.command c).children with
  | some (.owned r) =>
    if (s.registry r).destroyed then s.setCommand c (s.command c).destroy
    else (s.setCommand c (s.command c).destroy).closeRegistry r
  | _ => s.setCommand c (s.command c).destroy

theorem command_bury (c d : CommandId) :
    (s.bury c).command d =
      if d = c ∧ s.HasCommand c then (s.command c).destroy else s.command d := by
  have hset := s.command_setCommand c (s.command c).destroy d
  unfold bury
  split
  · split
    · exact hset
    · exact hset
  · exact hset

theorem registryOf_bury (c d : CommandId) :
    (s.bury c).registryOf d = if d = c then none else s.registryOf d := by
  rw [registryOf, command_bury]
  by_cases hd : d = c
  · by_cases hc : s.HasCommand c
    · simp [hd, hc, Command.destroy]
    · simp [hd, hc, s.command_of_not_hasCommand hc, Command.missing]
  · simp [hd, registryOf]

@[simp] theorem keyword_bury (c d : CommandId) : (s.bury c).keyword d = s.keyword d := by
  simp only [keyword, command_bury]
  split_ifs with h
  · rw [h.1]
    rfl
  · rfl

theorem itemsOf_bury (c : CommandId) (q : RegistryId) :
    (s.bury c).itemsOf q =
      if (s.command c).children = some (.owned q) ∧ (s.registry q).destroyed = false then []
      else s.itemsOf q := by
  unfold bury
  split
  next r hr =>
    split
    next hdead =>
      rw [if_neg]
      · rfl
      · rintro ⟨hq, hlive⟩
        rw [hr, Option.some.injEq, Children.owned.injEq] at hq
        simp_all
    next hlive =>
      have hlive : (s.registry r).destroyed = false := by simpa using hlive
      have hhas : (s.setCommand c (s.command c).destroy).HasRegistry r :=
        s.hasRegistry_of_live hlive
      simp only [itemsOf, closeRegistry, registry_setRegistry, hhas, and_true, hr,
        Option.some.injEq, Children.owned.injEq]
      by_cases hq : q = r
      · simp [hq, hlive]
      · simp [hq, Ne.symm hq]
  next hr =>
    rw [if_neg]
    · rfl
    · rintro ⟨hq, -⟩
      exact hr q hq

end Store

end CommandShell
