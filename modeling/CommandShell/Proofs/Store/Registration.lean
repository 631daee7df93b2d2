import CommandShell.Proofs.Store.Finality

/-!
# What registering a command does

A command that something is to be registered under is first given a registry, if it has none,
and only then is it known whether the new sub-command may join.  So a refusal can leave a trace:
an empty registry that was not there before.  This registry takes part in the search for
cycles as any other does.  Nothing else in the store ever changes, but for the one registry
that the sub-command joins.
-/

namespace CommandShell.Store

open Relation

variable {s t u : Store} {c d : CommandId} {r q : RegistryId}

/-- The command has the registry; if it had none before, it is given this one, which is new and
empty, as its own.  Nothing else has changed. -/
structure Provides (s : Store) (c : CommandId) (r : RegistryId) (t : Store) : Prop where
  hasCommand : ∀ d, t.HasCommand d ↔ s.HasCommand d
  hasRegistry : ∀ q, t.HasRegistry q ↔ s.HasRegistry q ∨ q = r
  registryOf : t.registryOf c = some r
  had : ∀ {q}, s.registryOf c = some q → q = r ∧ t = s
  made : s.registryOf c = none → ¬ s.HasRegistry r ∧ t.registry r = {}
  given : s.registryOf c = none → t.command c = { s.command c with children := some (.owned r) }
  command : ∀ {d}, d ≠ c → t.command d = s.command d
  registry : ∀ {q}, q ≠ r → t.registry q = s.registry q

/-- The command joins the registry as its last one, and nothing else has changed. -/
structure Joins (s : Store) (r : RegistryId) (c : CommandId) (t : Store) : Prop where
  hasCommand : ∀ d, t.HasCommand d ↔ s.HasCommand d
  hasRegistry : ∀ q, t.HasRegistry q ↔ s.HasRegistry q
  joined : t.registry r = { s.registry r with items := s.itemsOf r ++ [c] }
  command : ∀ d, t.command d = s.command d
  registry : ∀ {q}, q ≠ r → t.registry q = s.registry q

/-! ## Being given a registry -/

theorem provides_furnish (hc : s.HasCommand c) (hnone : s.registryOf c = none) :
    s.Provides c s.nextRegistry (s.furnish c) where
  hasCommand d := by simp [HasCommand, furnish, addRegistry, setCommand]
  hasRegistry q := hasRegistry_addRegistry_iff {} q
  registryOf := by rw [registryOf_furnish _ hc, if_pos rfl]
  had hsome := by
    rw [hnone] at hsome
    cases hsome
  made _ := by
    refine ⟨s.not_hasRegistry_nextRegistry, ?_⟩
    rw [furnish, registry_setCommand, registry_addRegistry, if_pos rfl]
  given _ := (command_setCommand _ _ _ _).trans (if_pos ⟨rfl, hc⟩)
  command hd := (command_setCommand _ _ _ _).trans (if_neg fun h => hd h.1)
  registry hq := by rw [furnish, registry_setCommand, registry_addRegistry, if_neg hq]

theorem provides_ensureRegistry (hs : s.Sound) (hc : s.HasCommand c) :
    s.Provides c (s.ensureRegistry c).1 (s.ensureRegistry c).2 := by
  cases hr : s.registryOf c with
  | none =>
    rw [ensureRegistry_of_none _ hr]
    exact provides_furnish hc hr
  | some r =>
    rw [ensureRegistry_of_some _ hr]
    refine ⟨fun _ => Iff.rfl, fun q => ?_, hr, fun hq => ?_, fun hnone => ?_, fun hnone => ?_,
      fun _ => rfl, fun _ => rfl⟩
    · exact ⟨.inl, fun h => h.elim id fun hq => hq ▸ hs.refs hr⟩
    · exact ⟨Option.some.inj (hq.symm.trans hr), rfl⟩
    · rw [hr] at hnone
      cases hnone
    · rw [hr] at hnone
      cases hnone

namespace Provides

theorem itemsOf_self (h : s.Provides c r t) : t.itemsOf r = s.subcommands c := by
  cases hr : s.registryOf c with
  | none =>
    rw [itemsOf, (h.made hr).2, subcommands, hr]
    rfl
  | some q =>
    obtain ⟨rfl, rfl⟩ := h.had hr
    rw [subcommands_of_registryOf _ hr]

theorem itemsOf (h : s.Provides c r t) (q : RegistryId) : t.itemsOf q = s.itemsOf q := by
  cases hr : s.registryOf c with
  | none =>
    by_cases hq : q = r
    · obtain ⟨hnew, hempty⟩ := h.made hr
      rw [hq, Store.itemsOf, hempty, Store.itemsOf, s.registry_of_not_hasRegistry hnew]
      rfl
    · rw [Store.itemsOf, h.registry hq, Store.itemsOf]
  | some p =>
    obtain ⟨-, rfl⟩ := h.had hr
    rfl

theorem registryOf_of_ne (h : s.Provides c r t) (hd : d ≠ c) :
    t.registryOf d = s.registryOf d := by
  rw [Store.registryOf, h.command hd, Store.registryOf]

/-- An empty registry adds no sub-commands. -/
theorem parent_iff (h : s.Provides c r t) (d e : CommandId) : t.Parent d e ↔ s.Parent d e := by
  by_cases hd : d = c
  · rw [hd, Parent, subcommands_of_registryOf _ h.registryOf, h.itemsOf_self, Parent]
  · simp only [Store.parent_iff, h.registryOf_of_ne hd, h.itemsOf]

/-- A command leads to the registry just in case it, or one below it, is the command that was to
have a registry, or had the same one before. -/
theorem leads_iff (h : s.Provides c r t) (hs : s.Sound) (e : CommandId) :
    t.Leads e r ↔
      ∃ d, ReflTransGen s.Parent e d ∧ (d = c ∨ ∃ q ∈ s.registryOf c, s.registryOf d = some q) := by
  have hparent : t.Parent = s.Parent := funext fun d => funext fun e => propext (h.parent_iff d e)
  rw [Leads, hparent]
  refine exists_congr fun d => and_congr_right fun _ => ?_
  constructor
  · intro hd
    by_cases hdc : d = c
    · exact .inl hdc
    rw [h.registryOf_of_ne hdc] at hd
    cases hr : s.registryOf c with
    | none => exact absurd (hs.refs hd) (h.made hr).1
    | some q =>
      obtain ⟨rfl, -⟩ := h.had hr
      exact .inr ⟨q, rfl, hd⟩
  · rintro (rfl | ⟨q, hq, hd⟩)
    · exact h.registryOf
    · obtain ⟨rfl, rfl⟩ := h.had hq
      exact hd

end Provides

/-! ## Joining it -/

theorem joins_enlist (hr : s.HasRegistry r) (c : CommandId) : s.Joins r c (s.enlist r c) where
  hasCommand _ := Iff.rfl
  hasRegistry q := by simp [HasRegistry, enlist, setRegistry]
  joined := (registry_setRegistry _ _ _ _).trans (if_pos ⟨rfl, hr⟩)
  command _ := rfl
  registry hq := (registry_setRegistry _ _ _ _).trans (if_neg fun h => hq h.1)

/-- A command that is not refused joins the registry of the other one, which it has or is
given. -/
theorem value_register_of_true {parent child : CommandId}
    (h : (s.register parent child).value.1 = true) :
    (s.register parent child).value.2 =
      (s.ensureRegistry parent).2.enlist (s.ensureRegistry parent).1 child := by
  rw [value_register] at h ⊢
  dsimp only at h ⊢
  split_ifs at h ⊢
  rfl

/-- A refusal leaves the store as it is, or with the registry that was made for it. -/
theorem value_register_of_false {parent child : CommandId}
    (h : (s.register parent child).value.1 = false) :
    (s.register parent child).value.2 =
      if s.keyword child = "" ∨ (s.command child).destroyed then s
      else (s.ensureRegistry parent).2 := by
  rw [value_register] at h ⊢
  dsimp only at h ⊢
  simp only [String.isEmpty_iff] at h ⊢
  split_ifs at h ⊢ <;> rfl

/-- **What registering a command does.**  The other command has a registry, or is given a new
and empty one.  The command is registered just in case it has a keyword, is not destroyed, does
not lead to that registry, and the registry is not destroyed and holds no command with this
keyword.  Then it follows those that are in the registry.  Otherwise no registry changes, and
no command, but for the one that may have been given its registry; this happens unless the
command has no keyword or is destroyed.  A command leads to the registry if it, or one below it,
is the other command or shared a registry with it before. -/
theorem register_joins (h : s.Reachable) {parent : CommandId} (hparent : s.HasCommand parent)
    (child : CommandId) :
    ∃ r t, s.Provides parent r t ∧
      ((s.register parent child).value.1 = true ↔
        s.keyword child ≠ "" ∧ (s.command child).destroyed = false ∧
          (t.registry r).destroyed = false ∧ ¬ t.Leads child r ∧
          ∀ d ∈ t.itemsOf r, s.keyword d ≠ s.keyword child) ∧
      (t.Leads child r ↔ ∃ d, ReflTransGen s.Parent child d ∧
        (d = parent ∨ ∃ q ∈ s.registryOf parent, s.registryOf d = some q)) ∧
      ((s.register parent child).value.1 = true →
        t.Joins r child (s.register parent child).value.2) ∧
      ((s.register parent child).value.1 = false →
        (s.register parent child).value.2 =
          if s.keyword child = "" ∨ (s.command child).destroyed then s else t) := by
  have hs := h.sound
  have hprovides := provides_ensureRegistry hs hparent
  refine ⟨_, _, hprovides, ?_, hprovides.leads_iff hs child, fun htrue => ?_,
    value_register_of_false⟩
  · rw [register_eq_true_iff hs hparent, hprovides.itemsOf_self, Closed, Bool.not_eq_true]
  · rw [value_register_of_true htrue]
    exact joins_enlist (hasRegistry_ensureRegistry hs hparent) child

/-- The command `b` stands below `a`, and so below the alias of `a`.  When the alias is to be
registered under `b`, it leads to the registry that `b` is given for it, and is refused; the
registry stays. -/
theorem paired_register_joins :
    (paired.enlist ⟨0⟩ ⟨1⟩).Reachable ∧ (paired.enlist ⟨0⟩ ⟨1⟩).HasCommand ⟨1⟩ ∧
      (paired.enlist ⟨0⟩ ⟨1⟩).registryOf ⟨1⟩ = none ∧
      ((paired.enlist ⟨0⟩ ⟨1⟩).register ⟨1⟩ ⟨2⟩).value.1 = false ∧
      ∃ r, ¬ (paired.enlist ⟨0⟩ ⟨1⟩).HasRegistry r ∧
        ((paired.enlist ⟨0⟩ ⟨1⟩).register ⟨1⟩ ⟨2⟩).value.2.Owns ⟨1⟩ r ∧
        ((paired.enlist ⟨0⟩ ⟨1⟩).register ⟨1⟩ ⟨2⟩).value.2.registry r = {} := by
  have hhas : (paired.enlist ⟨0⟩ ⟨1⟩).HasCommand ⟨1⟩ := by decide
  have hnone : (paired.enlist ⟨0⟩ ⟨1⟩).registryOf ⟨1⟩ = none := by decide
  obtain ⟨r, t, hprovides, htrue, hleads, -, hfalse⟩ := register_joins reachable_paired hhas ⟨2⟩
  have hbelow : (paired.enlist ⟨0⟩ ⟨1⟩).Parent ⟨2⟩ ⟨1⟩ :=
    parent_iff.2 ⟨⟨0⟩, by decide, by decide⟩
  have hrefused : ((paired.enlist ⟨0⟩ ⟨1⟩).register ⟨1⟩ ⟨2⟩).value.1 = false := by
    rw [← Bool.not_eq_true, htrue]
    exact fun h => h.2.2.2.1 (hleads.2 ⟨⟨1⟩, .single hbelow, .inl rfl⟩)
  obtain ⟨hnew, hempty⟩ := hprovides.made hnone
  refine ⟨reachable_paired, hhas, hnone, hrefused, r, hnew, ?_, ?_⟩
  · rw [hfalse hrefused, if_neg (by decide), Owns, hprovides.given hnone]
  · rw [hfalse hrefused, if_neg (by decide), hempty]

end CommandShell.Store
