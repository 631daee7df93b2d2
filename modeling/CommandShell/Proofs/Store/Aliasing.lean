import CommandShell.Proofs.Store.Removal
import CommandShell.Proofs.Store.Roster

/-!
# Aliases of sub-commands

An alias of a sub-command can always be registered beside its original, as long as the keyword
is free: the registry is open, since it holds the original, and the alias leads where its
original leads, which is not back to the registry.  If it is registered and unregistered again,
or refused and destroyed, nothing is left of it but the alias itself, which is destroyed, and
the registry that its original may have been given.
-/

namespace CommandShell.Store

open Relation

variable {s t u v : Store} {root a c d : CommandId} {r q : RegistryId} {keyword : String}

/-- One of the sub-commands has the keyword. -/
def Knows (s : Store) (c : CommandId) (keyword : String) : Prop :=
  ∃ d ∈ s.subcommands c, s.keyword d = keyword

instance (s : Store) (c : CommandId) (keyword : String) : Decidable (s.Knows c keyword) :=
  inferInstanceAs (Decidable (∃ d ∈ s.subcommands c, s.keyword d = keyword))

theorem find_eq_none_iff_not_knows : (s.find c keyword).value = none ↔ ¬ s.Knows c keyword := by
  simp [find_eq_none_iff, Knows]

/-- The command is new, it is the only one that was made, and nothing else has changed. -/
structure Adds (s : Store) (a : CommandId) (t : Store) : Prop where
  new : ¬ s.HasCommand a
  hasCommand : ∀ d, t.HasCommand d ↔ s.HasCommand d ∨ d = a
  hasRegistry : ∀ q, t.HasRegistry q ↔ s.HasRegistry q
  command : ∀ {d}, d ≠ a → t.command d = s.command d
  registry : ∀ q, t.registry q = s.registry q

/-! ## What is not touched -/

theorem subcommands_congr (hregistry : t.registryOf d = s.registryOf d)
    (hitems : ∀ q, t.itemsOf q = s.itemsOf q) : t.subcommands d = s.subcommands d := by
  rw [subcommands, hregistry, funext hitems, subcommands]

namespace Adds

theorem ne (h : s.Adds a t) (hd : s.HasCommand d) : d ≠ a := by
  rintro rfl
  exact h.new hd

theorem itemsOf (h : s.Adds a t) (r : RegistryId) : t.itemsOf r = s.itemsOf r := by
  rw [Store.itemsOf, h.registry, Store.itemsOf]

theorem subcommands (h : s.Adds a t) (hd : s.HasCommand d) :
    t.subcommands d = s.subcommands d := by
  refine subcommands_congr ?_ h.itemsOf
  rw [registryOf, h.command (h.ne hd), registryOf]

end Adds

namespace Provides

theorem subcommands (h : s.Provides c r t) (d : CommandId) : t.subcommands d = s.subcommands d := by
  by_cases hd : d = c
  · rw [hd, subcommands_of_registryOf _ h.registryOf, h.itemsOf_self]
  · exact subcommands_congr (h.registryOf_of_ne hd) h.itemsOf

theorem destroyed (h : s.Provides c r t) (d : CommandId) :
    (t.command d).destroyed = (s.command d).destroyed := by
  by_cases hd : d = c
  · subst hd
    cases hr : s.registryOf d with
    | none => rw [h.given hr]
    | some q => rw [(h.had hr).2]
  · rw [h.command hd]

end Provides

/-! ## Making an alias -/

theorem adds_makeAlias (s : Store) (c : CommandId) (keyword : String) :
    (s.ensureRegistry c).2.Adds (s.makeAlias c keyword).1 (s.makeAlias c keyword).2 where
  new := not_hasCommand_nextCommand _
  hasCommand d := hasCommand_addCommand_iff _ d
  hasRegistry _ := Iff.rfl
  command hd := s.command_makeAlias_of_ne c keyword hd
  registry _ := rfl

theorem not_owns_makeAlias (s : Store) (c : CommandId) (keyword : String) (r : RegistryId) :
    ¬ (s.makeAlias c keyword).2.Owns (s.makeAlias c keyword).1 r := by
  rw [Owns, command_makeAlias_self]
  simp

theorem keyword_makeAlias_self (s : Store) (c : CommandId) (keyword : String) :
    (s.makeAlias c keyword).2.keyword (s.makeAlias c keyword).1 = keyword := by
  rw [Store.keyword, command_makeAlias_self]
  rfl

theorem destroyed_makeAlias_self (s : Store) (c : CommandId) (keyword : String) :
    ((s.makeAlias c keyword).2.command (s.makeAlias c keyword).1).destroyed = false := by
  rw [command_makeAlias_self]

/-- A command leads where another one leads that has the same registry. -/
theorem Leads.of_registryOf_eq (h : s.Leads a r) (hac : s.registryOf a = s.registryOf c) :
    s.Leads c r := by
  obtain ⟨e, hpath, he⟩ := h
  obtain rfl | ⟨d, had, hrest⟩ := ReflTransGen.cases_head hpath
  · exact leads_of_registryOf (hac ▸ he)
  · refine ⟨e, ReflTransGen.head ?_ hrest, he⟩
    rw [parent_iff] at had ⊢
    rwa [← hac]

/-- No command leads to a registry that it stands in. -/
theorem Acyclic.not_leads_of_mem (h : s.Acyclic) (hc : c ∈ s.itemsOf r) : ¬ s.Leads c r := by
  rintro ⟨e, hpath, he⟩
  exact (h.grounded c).not_transGen (.tail' hpath (parent_iff.2 ⟨r, he, hc⟩))

/-- **An alias can be registered beside its original just in case its keyword is free there.**
The search for cycles never speaks against it. -/
theorem Reachable.register_makeAlias (h : s.Reachable) (hr : s.registryOf root = some r)
    (hc : c ∈ s.itemsOf r) (hkeyword : keyword ≠ "") :
    (s.makeAlias c keyword).2.registryOf root = some r ∧
    (((s.makeAlias c keyword).2.register root (s.makeAlias c keyword).1).value.1 = true ↔
      ¬ s.Knows root keyword) := by
  have hhas := h.sound.items hc
  have hroot := s.hasCommand_of_registryOf hr
  have ht : (s.makeAlias c keyword).2.Reachable :=
    h.perform (.makeAlias c keyword) (by simpa [Operation.operands] using hhas)
  have hroot' := h.hasCommand_perform (.makeAlias c keyword)
    (by simpa [Operation.operands] using hhas) hroot
  have hr' : (s.makeAlias c keyword).2.registryOf root = some r := by
    have hstays := stays_makeAlias keyword hhas hroot
    obtain ⟨children, hchildren, rfl⟩ := Option.map_eq_some_iff.1 hr
    exact registryOf_of_children _ (hstays.children hchildren)
  have hitems := s.itemsOf_makeAlias c keyword r
  obtain ⟨hshared, hshared'⟩ := registryOf_makeAlias hhas keyword
  have hleads : ¬ (s.makeAlias c keyword).2.Leads (s.makeAlias c keyword).1 r := fun hleads =>
    ht.acyclic.not_leads_of_mem (hitems ▸ hc)
      (hleads.of_registryOf_eq (hshared.trans hshared'.symm))
  have hopen : ¬ (s.makeAlias c keyword).2.Closed r := fun hclosed => by
    have hempty := ht.owned.emptied hclosed
    rw [hitems] at hempty
    exact List.not_mem_nil (hempty ▸ hc)
  refine ⟨hr', ?_⟩
  rw [register_eq_true_iff ht.sound hroot', ensureRegistry_of_some _ hr', keyword_makeAlias_self,
    subcommands_of_registryOf _ hr', hitems, Knows, subcommands_of_registryOf _ hr]
  have hsame : ∀ d ∈ s.itemsOf r, (s.makeAlias c keyword).2.keyword d = s.keyword d := by
    intro d hd
    rw [Store.keyword, (stays_makeAlias keyword hhas (h.sound.items hd)).face, Store.keyword]
  simp only [ne_eq, hkeyword, not_false_eq_true, destroyed_makeAlias_self, hopen, hleads, true_and,
    not_exists, not_and]
  exact forall₂_congr fun d hd => by rw [hsame d hd]

/-! ## What is left of an alias -/

/-- A command that owns nothing goes down alone. -/
theorem Falls.eq_of_not_owns (h : s.Falls a d) (hnone : ∀ r, ¬ s.Owns a r) : d = a := by
  obtain rfl | ⟨e, ⟨-, r, hown, -⟩, -⟩ := ReflTransGen.cases_head h.2
  · rfl
  · exact absurd hown (hnone r)

/-- The new command is destroyed. -/
theorem Adds.bury (h : s.Adds a t) (hnone : ∀ r, ¬ t.Owns a r) : s.Adds a (t.bury a) where
  new := h.new
  hasCommand d := by
    rw [← h.hasCommand d, HasCommand, HasCommand, length_commands_bury]
  hasRegistry q := by
    rw [← h.hasRegistry q, HasRegistry, HasRegistry, length_registries_bury]
  command hd := by
    rw [command_bury, if_neg fun hda => hd hda.1, h.command hd]
  registry q := by
    rw [registry_bury_of_not fun hown => absurd hown (hnone q), h.registry q]

/-- The new command is registered, and unregistered again. -/
theorem Adds.withdrawn (h : s.Adds a t) (hout : a ∉ s.itemsOf r) (hnone : ∀ r, ¬ t.Owns a r)
    (hjoins : t.Joins r a u) (hwithdrawn : u.Withdrawn r a v) : s.Adds a v := by
  have hnone' : ∀ r, ¬ u.Owns a r := fun r => by
    rw [Owns, hjoins.command]
    exact hnone r
  refine ⟨h.new, fun d => ?_, fun q => ?_, fun {d} hd => ?_, fun q => ?_⟩
  · rw [hwithdrawn.hasCommand, hjoins.hasCommand, h.hasCommand]
  · rw [hwithdrawn.hasRegistry, hjoins.hasRegistry, h.hasRegistry]
  · rw [hwithdrawn.standing fun hfalls => hd (hfalls.eq_of_not_owns hnone'), hjoins.command,
      h.command hd]
  · by_cases hq : q = r
    · -- The alias was the last in the registry, and stood there once.
      have hitems : (u.itemsOf r).filter (· ≠ a) = t.itemsOf r := by
        rw [Store.itemsOf, hjoins.joined]
        exact filter_ne_concat (h.itemsOf r ▸ hout)
      rw [hq, hwithdrawn.left, hitems, hjoins.joined, ← h.registry r]
      rfl
    · rw [hwithdrawn.kept hq fun e hfalls => hfalls.eq_of_not_owns hnone' ▸ hnone' q,
        hjoins.registry hq, h.registry q]

end CommandShell.Store
