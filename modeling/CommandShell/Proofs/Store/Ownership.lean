import CommandShell.Proofs.Store.Operation

/-!
# Every registry has one owner

A registry is made together with its owner, or for a command that has none, and it is
closed when that owner is destroyed.  Copies and aliases are given a registry of their own
or borrow one, so nobody comes to own what another command owns already.  A registry is
therefore open exactly as long as it has an owner, and the owner is one.
-/

namespace CommandShell.Store

open Relation

/-- The command owns the registry. -/
def Owns (s : Store) (c : CommandId) (r : RegistryId) : Prop :=
  (s.command c).children = some (.owned r)

/-- The registry is destroyed; so is, by convention, one that was never made. -/
def Closed (s : Store) (r : RegistryId) : Prop := (s.registry r).destroyed = true

instance (s : Store) (c : CommandId) (r : RegistryId) : Decidable (s.Owns c r) :=
  inferInstanceAs (Decidable (_ = _))

instance (s : Store) (r : RegistryId) : Decidable (s.Closed r) :=
  inferInstanceAs (Decidable (_ = _))

variable {s t : Store}

theorem Owns.registryOf {c : CommandId} {r : RegistryId} (h : s.Owns c r) :
    s.registryOf c = some r :=
  s.registryOf_of_children h

theorem Owns.hasCommand {c : CommandId} {r : RegistryId} (h : s.Owns c r) : s.HasCommand c :=
  s.hasCommand_of_registryOf h.registryOf

theorem not_owns_of_registryOf {c : CommandId} (h : s.registryOf c = none) (r : RegistryId) :
    ¬ s.Owns c r := by
  intro hown
  rw [hown.registryOf] at h
  cases h

/-- A command that is yet to be made owns nothing. -/
theorem not_owns_nextCommand (r : RegistryId) : ¬ s.Owns s.nextCommand r :=
  fun h => s.not_hasCommand_nextCommand h.hasCommand

theorem closed_nextRegistry (s : Store) : s.Closed s.nextRegistry := by
  rw [Closed, s.registry_of_not_hasRegistry s.not_hasRegistry_nextRegistry, Registry.missing]

/-! ## Who owns what after each elementary change -/

theorem owns_addCommand (x : Command) (c : CommandId) (r : RegistryId) :
    (s.addCommand x).2.Owns c r ↔
      if c = s.nextCommand then x.children = some (.owned r) else s.Owns c r := by
  rw [Owns, command_addCommand]
  split_ifs <;> rfl

@[simp] theorem owns_addAttributes (c : CommandId) (flags : Int) (d : CommandId)
    (r : RegistryId) : (s.addAttributes c flags).Owns d r ↔ s.Owns d r := by
  rw [Owns, addAttributes, command_setCommand]
  split_ifs with hd
  · rw [hd.1, Owns]
  · rfl

theorem owns_furnish {c : CommandId} (hc : s.HasCommand c) (d : CommandId) (r : RegistryId) :
    (s.furnish c).Owns d r ↔ if d = c then r = s.nextRegistry else s.Owns d r := by
  have hc' : (s.addRegistry {}).2.HasCommand c := hc
  simp only [Owns, furnish, command_setCommand, hc', and_true, command_addRegistry]
  split_ifs
  · simp [eq_comm]
  · rfl

theorem owns_found (face : Face) (items : List CommandId) (c : CommandId) (r : RegistryId) :
    (s.found face items).Owns c r ↔
      if c = s.nextCommand then r = s.nextRegistry else s.Owns c r := by
  have hadd := (s.addRegistry { items := items }).2.command_addCommand
    { toFace := face, children := some (.owned s.nextRegistry) } c
  change (s.found face items).command c = if c = s.nextCommand then _ else s.command c at hadd
  rw [Owns, hadd]
  split_ifs
  · simp [eq_comm]
  · rfl

theorem owns_bury (c d : CommandId) (r : RegistryId) :
    (s.bury c).Owns d r ↔ d ≠ c ∧ s.Owns d r := by
  rw [Owns, command_bury]
  by_cases hd : d = c
  · by_cases hc : s.HasCommand c
    · simp [hd, hc, Command.destroy]
    · simp [hd, hc, s.command_of_not_hasCommand hc, Command.missing]
  · simp [hd, Owns]

theorem closed_addRegistry (x : Registry) (hx : x.destroyed = false) (r : RegistryId) :
    (s.addRegistry x).2.Closed r ↔ r ≠ s.nextRegistry ∧ s.Closed r := by
  rw [Closed, registry_addRegistry]
  split_ifs with hr
  · simp [hr, hx]
  · simp [hr, Closed]

/-- A registry that keeps its flag stays as it was, open or closed. -/
theorem closed_setRegistry {q : RegistryId} {x : Registry}
    (hx : x.destroyed = (s.registry q).destroyed) (r : RegistryId) :
    (s.setRegistry q x).Closed r ↔ s.Closed r := by
  rw [Closed, registry_setRegistry]
  split_ifs with hr
  · rw [hx, hr.1, Closed]
  · rfl

@[simp] theorem closed_enlist (q : RegistryId) (c : CommandId) (r : RegistryId) :
    (s.enlist q c).Closed r ↔ s.Closed r :=
  closed_setRegistry (x := { s.registry q with items := s.itemsOf q ++ [c] }) rfl r

@[simp] theorem closed_strike (q : RegistryId) (position : Nat) (r : RegistryId) :
    (s.strike q position).Closed r ↔ s.Closed r :=
  closed_setRegistry (x := { s.registry q with items := (s.itemsOf q).eraseIdx position }) rfl r

/-- Destroying a command closes the registry that it owns and no other. -/
theorem closed_bury (c : CommandId) (r : RegistryId) :
    (s.bury c).Closed r ↔ s.Owns c r ∨ s.Closed r := by
  unfold bury
  split
  next q hq =>
    have howns : s.Owns c r ↔ r = q := by simp [Owns, hq, eq_comm]
    split
    next hclosed =>
      constructor
      · exact .inr
      · rintro (hr | hr)
        · rw [howns.1 hr]
          exact hclosed
        · exact hr
    next hopen =>
      have hhas : (s.setCommand c (s.command c).destroy).HasRegistry q :=
        s.hasRegistry_of_live (by simpa using hopen)
      rw [Closed, closeRegistry, registry_setRegistry, howns]
      by_cases hr : r = q
      · simp [hr, hhas]
      · simp [hr, Closed]
  next hq =>
    have hnone : ¬ s.Owns c r := hq r
    simp only [hnone, false_or]
    rfl

/-- A command that is destroyed is not destroyed again. -/
theorem value_destroy_of_destroyed {c : CommandId} (hdead : (s.command c).destroyed = true) :
    (s.destroy c).value = s := by
  rw [destroy, destroyAll, if_pos hdead]
  simp [destroyAll]

/-- Destroying a command that owns no other commands is one elementary change. -/
theorem value_destroy_of_live {c : CommandId} (hc : (s.command c).destroyed = false)
    (hitems : ∀ r, s.Owns c r → s.itemsOf r = []) : (s.destroy c).value = s.bury c := by
  rw [destroy, destroyAll, if_neg (by simp [hc])]
  split
  next r hr =>
    rw [hitems r hr, bury_of_owned hr]
    split <;> simp [destroyAll]
  next hr =>
    rw [bury_of_not_owned hr]
    simp [destroyAll]

/-- What an elementary change does to who owns what: nothing; a command that owns nothing gets a
registry that was just made; or one gives up what it owns, and the registry is closed. -/
inductive Transfer (s t : Store) : Prop
  | idle (howns : ∀ c r, t.Owns c r ↔ s.Owns c r) (hclosed : ∀ r, t.Closed r ↔ s.Closed r)
  | gain {c : CommandId} (hnone : ∀ r, ¬ s.Owns c r)
    (howns : ∀ d r, t.Owns d r ↔ d = c ∧ r = s.nextRegistry ∨ s.Owns d r)
    (hclosed : ∀ r, t.Closed r ↔ r ≠ s.nextRegistry ∧ s.Closed r)
  | loss {c : CommandId} (howns : ∀ d r, t.Owns d r ↔ d ≠ c ∧ s.Owns d r)
    (hclosed : ∀ r, t.Closed r ↔ s.Owns c r ∨ s.Closed r)

theorem Change.transfer (h : Change s t) : Transfer s t := by
  cases h with
  | create face =>
    refine .idle (fun c r => ?_) fun _ => Iff.rfl
    rw [owns_addCommand]
    split_ifs with hc
    · simp [hc, not_owns_nextCommand]
    · rfl
  | borrow hr hface =>
    refine .idle (fun c r => ?_) fun _ => Iff.rfl
    rw [owns_addCommand]
    split_ifs with hc
    · simp [hc, not_owns_nextCommand]
    · rfl
  | @found face items hitems hnamed hdistinct =>
    refine .gain not_owns_nextCommand (fun d r => ?_)
      (closed_addRegistry { items := items } rfl)
    rw [owns_found]
    split_ifs with hd
    · simp [hd, not_owns_nextCommand]
    · simp [hd]
  | mark c flags => exact .idle (owns_addAttributes c flags) fun _ => Iff.rfl
  | @furnish c hc hnone =>
    refine .gain (not_owns_of_registryOf hnone) (fun d r => ?_) (closed_addRegistry {} rfl)
    rw [owns_furnish hc]
    split_ifs with hd
    · simp [hd, not_owns_of_registryOf hnone]
    · simp [hd]
  | enlist hr hc hnamed hfree hleads => exact .idle (fun _ _ => Iff.rfl) (closed_enlist _ _)
  | strike r position => exact .idle (fun _ _ => Iff.rfl) (closed_strike r position)
  | @bury c hc => exact .loss (owns_bury c) (closed_bury c)

/-! ## A registry is open as long as it has an owner -/

/-- A registry is open as long as it has an owner, of whom there is one; once closed it is
empty. -/
structure Owned (s : Store) : Prop where
  alone : ∀ {c d r}, s.Owns c r → s.Owns d r → c = d
  held : ∀ r, (∃ c, s.Owns c r) ↔ ¬ s.Closed r
  emptied : ∀ {r}, s.Closed r → s.itemsOf r = []

theorem owned_empty : Owned {} where
  alone := by simp [Owns, command, Command.missing]
  held := by simp [Owns, Closed, command, registry, Command.missing, Registry.missing]
  emptied := by simp [itemsOf, registry, Registry.missing]

theorem Owned.not_owns_nextRegistry (h : s.Owned) (c : CommandId) :
    ¬ s.Owns c s.nextRegistry :=
  fun hc => (h.held _).1 ⟨c, hc⟩ s.closed_nextRegistry

theorem Owned.alone_of_transfer (h : s.Owned) (hst : Transfer s t) {c d : CommandId}
    {r : RegistryId} (hc : t.Owns c r) (hd : t.Owns d r) : c = d := by
  cases hst with
  | idle howns hclosed => exact h.alone ((howns c r).1 hc) ((howns d r).1 hd)
  | gain hnone howns hclosed =>
    -- Nobody owned the new registry, so its two owners are the one who gets it.
    rw [howns] at hc hd
    obtain ⟨rfl, rfl⟩ | hc := hc
    · obtain ⟨rfl, -⟩ | hd := hd
      · rfl
      · exact absurd hd (h.not_owns_nextRegistry d)
    · obtain ⟨-, rfl⟩ | hd := hd
      · exact absurd hc (h.not_owns_nextRegistry c)
      · exact h.alone hc hd
  | loss howns hclosed => exact h.alone ((howns c r).1 hc).2 ((howns d r).1 hd).2

theorem Owned.held_of_transfer (h : s.Owned) (hst : Transfer s t) (r : RegistryId) :
    (∃ c, t.Owns c r) ↔ ¬ t.Closed r := by
  have hheld := h.held r
  cases hst with
  | idle howns hclosed => simpa only [howns, hclosed] using hheld
  | @gain c hnone howns hclosed =>
    simp only [howns, hclosed]
    by_cases hr : r = s.nextRegistry
    · simp [hr]
    · simpa [hr] using hheld
  | @loss c howns hclosed =>
    simp only [howns, hclosed, not_or, ← hheld]
    constructor
    · rintro ⟨d, hne, hd⟩
      exact ⟨fun hc => hne (h.alone hd hc), d, hd⟩
    · rintro ⟨hc, d, hd⟩
      exact ⟨d, fun hdc => hc (hdc ▸ hd), hd⟩

theorem Owned.emptied_of_change (h : s.Owned) (hst : Change s t) {r : RegistryId}
    (hr : t.Closed r) : t.itemsOf r = [] := by
  -- What a registry loses does not matter; so it is about those that gain something.
  have hshrinks : Shrinks s t → s.Closed r → t.itemsOf r = [] := by
    intro hshrinks hclosed
    have hsub := hshrinks.itemsOf r
    rwa [h.emptied hclosed, List.sublist_nil] at hsub
  cases hst with
  | create face => exact h.emptied hr
  | borrow hq hface => exact h.emptied hr
  | found face hitems hnamed hdistinct =>
    obtain ⟨hne, hclosed⟩ := (closed_addRegistry _ rfl r).1 hr
    rw [itemsOf_found, if_neg hne]
    exact h.emptied hclosed
  | mark c flags => exact h.emptied hr
  | furnish hc hnone =>
    rw [itemsOf_furnish]
    exact h.emptied ((closed_addRegistry {} rfl r).1 hr).2
  | @enlist q c hq hc hnamed hfree hleads =>
    have hclosed : s.Closed r := (closed_enlist q c r).1 hr
    have hne : r ≠ q := by
      rintro rfl
      rw [Closed, hq] at hclosed
      cases hclosed
    rw [itemsOf_enlist _ (s.hasRegistry_of_live hq), if_neg hne]
    exact h.emptied hclosed
  | strike q position =>
    exact hshrinks (shrinks_strike s q position) ((closed_strike q position r).1 hr)
  | @bury c hc =>
    by_cases hclosed : s.Closed r
    · exact hshrinks (shrinks_bury s c) hclosed
    · obtain hown | hclosed' := (closed_bury c r).1 hr
      · rw [itemsOf_bury, if_pos ⟨hown, by simpa [Closed] using hclosed⟩]
      · exact absurd hclosed' hclosed

/-- Elementary changes keep ownership in order. -/
theorem Owned.of_change (h : s.Owned) (hst : Change s t) : t.Owned where
  alone := h.alone_of_transfer hst.transfer
  held := h.held_of_transfer hst.transfer
  emptied := h.emptied_of_change hst

theorem Reachable.owned (h : s.Reachable) : s.Owned :=
  h.invariant owned_empty fun _ howned hchange => howned.of_change hchange

/-- **Every registry has one owner**, in every store that operations on commands lead to: a
registry is open and owned by exactly one command, or it is destroyed and empty and owned by
none.  A command that borrows a registry is an alias. -/
theorem reachable_ownership (h : s.Reachable) :
    (∀ r, s.HasRegistry r →
      ((s.registry r).destroyed = false ∧
          ∃! c, (s.command c).children = some (.owned r)) ∨
        ((s.registry r).destroyed = true ∧ s.itemsOf r = [] ∧
          ∀ c, (s.command c).children ≠ some (.owned r))) ∧
    (∀ c r, (s.command c).children = some (.borrowed r) →
      (s.command c).attributes.isAlias = true) := by
  have howned := h.owned
  refine ⟨fun r _ => ?_, fun c r hc => h.sound.aliased hc⟩
  by_cases hr : s.Closed r
  · refine .inr ⟨hr, howned.emptied hr, fun c hc => ?_⟩
    exact (howned.held r).1 ⟨c, hc⟩ hr
  · obtain ⟨c, hc⟩ := (howned.held r).2 hr
    exact .inl ⟨by simpa [Closed] using hr, c, hc, fun d hd => howned.alone hd hc⟩

/-! ## A store with a borrowed registry that is closed -/

/-- A command with an alias, after the command was destroyed. -/
def orphaned : Store :=
  [Operation.create { keyword := "a" }, .makeAlias ⟨0⟩ "c", .destroy ⟨0⟩].foldl
    Operation.perform {}

theorem reachable_orphaned : orphaned.Reachable := by
  have hempty : Reachable {} := ReflTransGen.refl
  have ha := hempty.perform (.create { keyword := "a" }) (by decide)
  have hc := ha.perform (.makeAlias ⟨0⟩ "c") (by decide)
  exact hc.perform (.destroy ⟨0⟩) (by decide)

/-- The registry that the alias borrows has lost its owner. -/
theorem orphaned_ownership :
    orphaned.Reachable ∧ orphaned.HasRegistry ⟨0⟩ ∧
      (orphaned.registry ⟨0⟩).destroyed = true ∧ orphaned.itemsOf ⟨0⟩ = [] ∧
      ∀ c, (orphaned.command c).children ≠ some (.owned ⟨0⟩) := by
  have hbury : orphaned = ([Operation.create { keyword := "a" }, .makeAlias ⟨0⟩ "c"].foldl
      Operation.perform {}).bury ⟨0⟩ := by
    refine value_destroy_of_live (by decide) fun r hr => ?_
    cases hr
    decide
  have hhas : orphaned.HasRegistry ⟨0⟩ := by
    rw [hbury]
    decide
  obtain ⟨hopen, -⟩ | hclosed := (reachable_ownership reachable_orphaned).1 ⟨0⟩ hhas
  · rw [hbury] at hopen
    exact absurd hopen (by decide)
  · exact ⟨reachable_orphaned, hhas, hclosed⟩

end CommandShell.Store
