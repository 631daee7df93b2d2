import CommandShell.Proofs.Store.Keywords
import CommandShell.Proofs.Store.Ownership

/-!
# An alias shares the registry of its original

An alias borrows the registry of the command that it was made from, which is itself owned
or borrowed.  A command that has a registry keeps it until it is destroyed, so the two
refer to the same one as long as both are there: what is registered or unregistered through
either is seen through the other.  The registry outlives neither its owner nor, once closed,
any later operation; an alias that is left behind refers to it all the same, finds nothing
in it and can add nothing to it.

A registry is closed only when its owner is destroyed while it owns it.  A command that is
destroyed already can still be given a registry, by making an alias of it; that registry is
open, and its owner, being destroyed, is never destroyed again.
-/

namespace CommandShell.Store

open Relation

variable {s t : Store}

/-! ## What becomes of a command -/

/-- A command keeps its reference and its state; or it gets its first registry; or it is
destroyed, and the registry that it owns is closed. -/
theorem Change.fate (h : Change s t) {c : CommandId} (hc : s.HasCommand c) :
    ((t.command c).children = (s.command c).children ∧
        (t.command c).destroyed = (s.command c).destroyed) ∨
      (s.registryOf c = none ∧ (t.command c).destroyed = (s.command c).destroyed) ∨
      ((t.command c).destroyed = true ∧ ∀ r, s.Owns c r → t.Closed r) := by
  have hne := ne_nextCommand hc
  cases h with
  | create face => simp [command_addCommand, hne]
  | borrow hr hface => simp [command_addCommand, hne]
  | @found face items hitems hnamed hdistinct =>
    have hsame : (s.found face items).command c = s.command c :=
      ((s.addRegistry { items := items }).2.command_addCommand _ c).trans (if_neg hne)
    simp [hsame]
  | mark d flags =>
    rw [addAttributes, command_setCommand]
    split_ifs with hd <;> simp [hd]
  | @furnish d hd hnone =>
    rw [Store.furnish, command_setCommand]
    split_ifs with hcd
    · exact .inr (.inl ⟨hcd.1 ▸ hnone, by rw [hcd.1]⟩)
    · exact .inl ⟨rfl, rfl⟩
  | enlist hr hd hnamed hfree hleads => exact .inl ⟨rfl, rfl⟩
  | strike r position => exact .inl ⟨rfl, rfl⟩
  | @bury d hd =>
    rw [command_bury]
    split_ifs with hcd
    · refine .inr (.inr ⟨rfl, fun r hr => (closed_bury d r).2 (.inl ?_)⟩)
      rwa [← hcd.1]
    · exact .inl ⟨rfl, rfl⟩

theorem Change.destroyed (h : Change s t) {c : CommandId} (hc : (s.command c).destroyed = true)
    (hhas : s.HasCommand c) : (t.command c).destroyed = true := by
  obtain ⟨-, hsame⟩ | ⟨-, hsame⟩ | ⟨hdead, -⟩ := h.fate hhas
  · rw [hsame, hc]
  · rw [hsame, hc]
  · exact hdead

theorem Change.registryOf (h : Change s t) {c : CommandId} {r : RegistryId}
    (hr : s.registryOf c = some r) (hc : (t.command c).destroyed = false) :
    t.registryOf c = some r := by
  have hhas := s.hasCommand_of_registryOf hr
  obtain ⟨hsame, -⟩ | ⟨hnone, -⟩ | ⟨hdead, -⟩ := h.fate hhas
  · rw [Store.registryOf, hsame]
    exact hr
  · rw [hr] at hnone
    cases hnone
  · rw [hc] at hdead
    cases hdead

/-- A command keeps its registry until it is destroyed. -/
theorem Changes.registryOf (h : Changes s t) {c : CommandId} {r : RegistryId}
    (hr : s.registryOf c = some r) (hc : (t.command c).destroyed = false) :
    t.registryOf c = some r := by
  have hhas := s.hasCommand_of_registryOf hr
  induction h with
  | refl => exact hr
  | tail hpre hlast ih =>
    refine hlast.registryOf (ih ?_) hc
    -- It was not destroyed before either, since it would have stayed so.
    by_contra hdead
    rw [hlast.destroyed (by simpa using hdead) (Changes.hasCommand hpre hhas)] at hc
    cases hc

/-! ## What becomes of a registry -/

theorem Change.closed (h : Change s t) {r : RegistryId} (hhas : s.HasRegistry r)
    (hr : s.Closed r) : t.Closed r := by
  cases h.transfer with
  | idle howns hclosed => exact (hclosed r).2 hr
  | gain hnone howns hclosed =>
    refine (hclosed r).2 ⟨?_, hr⟩
    rintro rfl
    exact s.not_hasRegistry_nextRegistry hhas
  | loss howns hclosed => exact (hclosed r).2 (.inr hr)

/-- What is closed stays closed. -/
theorem Changes.closed (h : Changes s t) {r : RegistryId} (hhas : s.HasRegistry r)
    (hr : s.Closed r) : t.Closed r := by
  induction h with
  | refl => exact hr
  | tail hpre hlast ih => exact hlast.closed (Changes.hasRegistry hpre hhas) ih

/-- A registry is closed with its owner: as long as it is not, the owner is neither
destroyed nor without it. -/
theorem Changes.closed_of_owner (h : Changes s t) (hs : s.Sound) {c : CommandId} {r : RegistryId}
    (hown : s.Owns c r) (hlive : (s.command c).destroyed = false)
    (hdead : (t.command c).destroyed = true) : t.Closed r := by
  let P : Store → Prop := fun u =>
    (u.Owns c r ∧ (u.command c).destroyed = false) ∨ u.HasRegistry r ∧ u.Closed r
  have hinv : P t := by
    refine h.invariant hs (.inl ⟨hown, hlive⟩) ?_
    intro s t hs hinv hchange
    obtain ⟨hown, hlive⟩ | ⟨hhas, hclosed⟩ := hinv
    · obtain ⟨hsame, hlive'⟩ | ⟨hnone, -⟩ | ⟨-, hclosed⟩ := hchange.fate hown.hasCommand
      · exact .inl ⟨hsame.trans hown, hlive'.trans hlive⟩
      · exact absurd hown (not_owns_of_registryOf hnone r)
      · exact .inr ⟨hchange.hasRegistry (hs.refs hown.registryOf), hclosed r hown⟩
    · exact .inr ⟨hchange.hasRegistry hhas, hchange.closed hhas hclosed⟩
  obtain ⟨-, hlive'⟩ | ⟨-, hclosed⟩ := hinv
  · rw [hdead] at hlive'
    cases hlive'
  · exact hclosed

/-! ## Commands with the same registry -/

/-- What is registered or unregistered through `c` is seen through `d`, by its keyword and by
the beginnings of its keyword. -/
structure SeenThrough (s : Store) (c d : CommandId) : Prop where
  find : ∀ k, (s.find c k).value = (s.find d k).value
  startingWith : ∀ start?, (s.startingWith c start?).value = (s.startingWith d start?).value
  registered : ∀ child t, (s.register c child).value = (true, t) →
    (t.find d (t.keyword child)).value = some child ∧
    ∀ start, startsWith start (t.keyword child) = true →
      ∃ found, (t.startingWith d (some start)).value = some found ∧
        t.keyword child ∈ found.keywords
  unregistered : ∀ child t, (s.unregister c child).value = (true, t) →
    (t.find d (t.keyword child)).value = none ∧
    ∀ start found, (t.startingWith d (some start)).value = some found →
      t.keyword child ∉ found.keywords

/-- A command is registered by joining the registry of its parent. -/
theorem register_eq_enlist {parent child : CommandId} {r : RegistryId}
    (hr : s.registryOf parent = some r) (h : (s.register parent child).value = (true, t)) :
    (s.registry r).destroyed = false ∧ t = s.enlist r child := by
  obtain hrefused | ⟨hopen, henlist⟩ := register_cases hr child
  · rw [hrefused] at h
    cases h
  · rw [henlist] at h
    cases h
    exact ⟨hopen, rfl⟩

theorem Sound.seenThrough (hs : s.Sound) {c d : CommandId} {r : RegistryId}
    (hc : s.registryOf c = some r) (hd : s.registryOf d = some r) : s.SeenThrough c d where
  find k := by
    rw [value_find, value_find, subcommands_of_registryOf _ hc, subcommands_of_registryOf _ hd]
  startingWith start? := by
    rw [value_startingWith, value_startingWith, subcommands_of_registryOf _ hc,
      subcommands_of_registryOf _ hd]
  registered child t h := by
    have ht : t.Sound := by
      have := hs.of_changes (changes_register (s.hasCommand_of_registryOf hc) child)
      rwa [h] at this
    obtain ⟨hopen, rfl⟩ := register_eq_enlist hc h
    have hmem : child ∈ (s.enlist r child).subcommands d := by
      have hd' : (s.enlist r child).registryOf d = some r := hd
      rw [subcommands_of_registryOf _ hd', itemsOf_enlist _ (s.hasRegistry_of_live hopen),
        if_pos rfl]
      simp
    refine ⟨ht.find_eq_some_iff.2 ⟨hmem, rfl⟩, fun start hstart => ?_⟩
    have hne : ((s.enlist r child).subcommands d).isEmpty = false := by
      rw [List.isEmpty_eq_false_iff]
      exact List.ne_nil_of_mem hmem
    have hfound := (s.enlist r child).value_startingWith d (some start)
    rw [Option.bind_some, hne] at hfound
    exact ⟨_, hfound, (mem_startingWith hfound).2 ⟨⟨child, hmem, rfl⟩, hstart⟩⟩
  unregistered child t h := by
    have htrue : (s.unregister c child).value.1 = true := by rw [h]
    have hkeyword : ∀ e, t.keyword e = s.keyword e := by
      intro e
      have := s.keyword_unregister c child e
      rwa [h] at this
    have hgone : ∀ e ∈ t.subcommands d, t.keyword e ≠ t.keyword child := by
      intro e he
      rw [hkeyword, hkeyword]
      refine hs.keyword_ne_of_unregister htrue (hd.trans hc.symm) ?_
      rwa [h]
    refine ⟨find_eq_none_iff.2 hgone, fun start found hfound hmem => ?_⟩
    obtain ⟨⟨e, he, hsame⟩, -⟩ := (mem_startingWith hfound).1 hmem
    exact hgone e he hsame

/-- Nothing can be registered through a command whose registry is closed. -/
theorem register_of_closed {parent : CommandId} {r : RegistryId}
    (hr : s.registryOf parent = some r) (hclosed : s.Closed r) (child : CommandId) :
    (s.register parent child).value.1 = false := by
  obtain hrefused | ⟨hopen, -⟩ := register_cases hr child
  · rw [hrefused]
  · rw [hclosed] at hopen
    cases hopen

/-! ## Aliases -/

/-- The command that owned the registry has been destroyed, at some time before.  It was not
destroyed yet when it owned the registry: a command that was destroyed before it came to own
one does not count. -/
def LostOwner (s : Store) (r : RegistryId) : Prop :=
  ∃ u v o, u.Reachable ∧ u.Owns o r ∧ (u.command o).destroyed = false ∧
    Later u v ∧ (v.command o).destroyed = true ∧ Later v s

theorem LostOwner.closed {r : RegistryId} (h : s.LostOwner r) : s.Closed r := by
  obtain ⟨u, v, o, hu, hown, hlive, huv, hdead, hvs⟩ := h
  have hchanges := hu.sound.changes huv
  have hclosed := hchanges.closed_of_owner hu.sound hown hlive hdead
  have hhas := hchanges.hasRegistry (hu.sound.refs hown.registryOf)
  exact ((hu.later huv).sound.changes hvs).closed hhas hclosed

theorem registryOf_ensureRegistry {c : CommandId} (hc : s.HasCommand c) :
    (s.ensureRegistry c).2.registryOf c = some (s.ensureRegistry c).1 := by
  cases h : s.registryOf c with
  | none => rw [ensureRegistry_of_none _ h, registryOf_furnish _ hc, if_pos rfl]
  | some r => rw [ensureRegistry_of_some _ h, h]

/-- An alias and its original begin with the same registry. -/
theorem registryOf_makeAlias {c : CommandId} (hc : s.HasCommand c) (keyword : String) :
    (s.makeAlias c keyword).2.registryOf (s.makeAlias c keyword).1 =
        some (s.ensureRegistry c).1 ∧
      (s.makeAlias c keyword).2.registryOf c = some (s.ensureRegistry c).1 := by
  have hc' := (changes_ensureRegistry hc).hasCommand hc
  constructor
  · exact (registryOf_addCommand _ _ _).trans (if_pos rfl)
  · exact (registryOf_addCommand _ _ _).trans
      ((if_neg (ne_nextCommand hc')).trans (registryOf_ensureRegistry hc))

/-- **An alias shares the registry of its original.**  In every later store where neither is
destroyed, the two refer to the same registry, and what is registered or unregistered through
either is seen through the other.  Once the command that owned the registry has been
destroyed, the alias, as long as it is not destroyed itself, is left with a registry that is
destroyed and empty: it finds nothing, and nothing can be registered through it. -/
theorem alias_shares_registry (h : s.Reachable) {c : CommandId} (hc : s.HasCommand c)
    (keyword : String) {a : CommandId} {t : Store} (ha : s.makeAlias c keyword = (a, t)) :
    ∃ r, t.registryOf a = some r ∧ t.registryOf c = some r ∧
      ∀ u, Later t u → (u.command a).destroyed = false →
        ((u.command c).destroyed = false →
          u.registryOf a = some r ∧ u.registryOf c = some r ∧
            u.SeenThrough a c ∧ u.SeenThrough c a) ∧
        (u.LostOwner r →
          u.registryOf a = some r ∧ (u.registry r).destroyed = true ∧ u.itemsOf r = [] ∧
            (∀ k, (u.find a k).value = none) ∧
            ∀ child, (u.register a child).value.1 = false) := by
  have ht : t.Reachable := by
    have := h.perform (.makeAlias c keyword) (by simpa [Operation.operands] using hc)
    rwa [Operation.perform, ha] at this
  obtain ⟨hta, htc⟩ := registryOf_makeAlias hc keyword
  rw [ha] at hta htc
  refine ⟨_, hta, htc, fun u htu hlive => ?_⟩
  have hchanges := ht.sound.changes htu
  have hu := ht.later htu
  have hua := hchanges.registryOf hta hlive
  constructor
  · intro hlive'
    have huc := hchanges.registryOf htc hlive'
    exact ⟨hua, huc, hu.sound.seenThrough hua huc, hu.sound.seenThrough huc hua⟩
  · intro hlost
    have hclosed := hlost.closed
    have hempty := hu.owned.emptied hclosed
    refine ⟨hua, hclosed, hempty, fun k => ?_, register_of_closed hua hclosed⟩
    rw [value_find, subcommands_of_registryOf _ hua, hempty]
    rfl

theorem destroy_paired : (paired.destroy ⟨0⟩).value = paired.bury ⟨0⟩ := by
  refine value_destroy_of_live (by decide) fun r hr => ?_
  cases hr
  decide

/-- The alias `c` of `a` sees what is registered through `a`; when `a` is destroyed, `b` can
no longer be registered through the alias. -/
theorem paired_shares_registry :
    paired.SeenThrough ⟨0⟩ ⟨2⟩ ∧ (paired.bury ⟨0⟩).LostOwner ⟨0⟩ ∧
      ((paired.bury ⟨0⟩).registry ⟨0⟩).destroyed = true ∧
      ((paired.bury ⟨0⟩).register ⟨2⟩ ⟨1⟩).value.1 = false := by
  have hempty : Reachable {} := ReflTransGen.refl
  have ha := hempty.perform (.create { keyword := "a" }) (by decide)
  have hb := ha.perform (.create { keyword := "b" }) (by decide)
  have hpaired : paired.Reachable := hb.perform (.makeAlias ⟨0⟩ "c") (by decide)
  have hlater : Later paired (paired.bury ⟨0⟩) :=
    .single ⟨.destroy ⟨0⟩, by decide, destroy_paired⟩
  have hlost : (paired.bury ⟨0⟩).LostOwner ⟨0⟩ :=
    ⟨paired, paired.bury ⟨0⟩, ⟨0⟩, hpaired, by decide, by decide, hlater, by decide, .refl⟩
  obtain ⟨r, hr, -, hshares⟩ := alias_shares_registry hb (c := ⟨0⟩) (by decide) "c" rfl
  cases hr
  obtain ⟨-, hclosed, -, -, hrefused⟩ := (hshares (paired.bury ⟨0⟩) hlater (by decide)).2 hlost
  obtain ⟨-, -, -, hseen⟩ := (hshares paired .refl (by decide)).1 (by decide)
  exact ⟨hseen, hlost, hclosed, hrefused ⟨1⟩⟩

/-! ## An alias of a destroyed command -/

/-- Two commands, the first of them destroyed. -/
def retired : Store :=
  [Operation.create { keyword := "a" }, .create { keyword := "b" }, .destroy ⟨0⟩].foldl
    Operation.perform {}

/-- An alias is made of the command that is destroyed. -/
def revived : Store :=
  (retired.makeAlias ⟨0⟩ "c").2

theorem retired_eq_bury :
    retired = ([Operation.create { keyword := "a" }, .create { keyword := "b" }].foldl
      Operation.perform {}).bury ⟨0⟩ := by
  refine value_destroy_of_live (by decide) fun r hr => ?_
  cases hr

theorem reachable_retired : retired.Reachable := by
  have hempty : Reachable {} := ReflTransGen.refl
  have ha := hempty.perform (.create { keyword := "a" }) (by decide)
  have hb := ha.perform (.create { keyword := "b" }) (by decide)
  exact hb.perform (.destroy ⟨0⟩) (by decide)

/-- The owner of the registry that the alias borrows is destroyed.  The registry is open all
the same, and `b` can be registered through the alias. -/
theorem revived_registry_open :
    retired.Reachable ∧ retired.makeAlias ⟨0⟩ "c" = (⟨2⟩, revived) ∧
      revived.registryOf ⟨2⟩ = some ⟨0⟩ ∧ (revived.command ⟨2⟩).destroyed = false ∧
      revived.Owns ⟨0⟩ ⟨0⟩ ∧ (revived.command ⟨0⟩).destroyed = true ∧
      (revived.registry ⟨0⟩).destroyed = false ∧
      (revived.register ⟨2⟩ ⟨1⟩).value.1 = true := by
  refine ⟨reachable_retired, ?_⟩
  rw [revived, retired_eq_bury]
  refine ⟨Prod.ext (by decide) rfl, by decide, by decide, by decide, by decide, by decide, ?_⟩
  rw [value_register_of_bare (ensureRegistry_of_some _ (r := ⟨0⟩) rfl) (by decide) (by decide)
    (by decide) (by decide) (by decide) (by decide)]

end CommandShell.Store
