import CommandShell.Proofs.Store.Extension
import CommandShell.Proofs.Store.Roster
import CommandShell.Proofs.Store.Sharing

/-!
# What is left of a destroyed command

A command that is destroyed stays so, and never gets a handler or a context again.  Its
reference to a registry is given up, but not for good: no operation asks whether the command
it is applied to is destroyed.  Registering something under it, or making an alias of it,
gives it a new registry, which is open.  As the command is never destroyed a second time,
this registry stays open, with whatever it holds.
-/

namespace CommandShell

open Relation

/-- The operation may give the command a registry: something is to be registered under it, or
an alias is made of it. -/
def Operation.furnishes (c : CommandId) : Operation → Bool
  | register parent _ => parent == c
  | makeAlias d _ => d == c
  | _ => false

namespace Store

variable {s t : Store}

/-! ## The moment of destruction -/

/-- Destroying commands leaves every other one as it was. -/
theorem command_of_burials (h : ReflTransGen Burial s t) (c : CommandId) :
    t.command c = s.command c ∨ t.command c = (s.command c).destroy := by
  induction h with
  | refl => exact .inl rfl
  | tail _ hlast ih =>
    obtain ⟨d, -, rfl⟩ := hlast
    rw [command_bury]
    split_ifs with hc
    · rw [← hc.1]
      -- What is destroyed already looks the same when it is destroyed again.
      obtain hsame | hdead := ih
      · exact .inr (by rw [hsame])
      · exact .inr (by rw [hdead]; rfl)
    · exact ih

theorem command_unregister (s : Store) (parent child c : CommandId) :
    (s.unregister parent child).value.2.command c = s.command c ∨
      (s.unregister parent child).value.2.command c = (s.command c).destroy := by
  rw [value_unregister]
  split
  next r position d _ => exact command_of_burials (burials_destroyAll (s.strike r position) [d]) c
  next => exact .inl rfl

theorem destroyed_register (s : Store) (parent child c : CommandId) :
    ((s.register parent child).value.2.command c).destroyed = (s.command c).destroyed := by
  have hensure := s.destroyed_ensureRegistry parent c
  rw [value_register]
  revert hensure
  generalize s.ensureRegistry parent = ensured
  obtain ⟨r, t⟩ := ensured
  intro hensure
  dsimp only
  split_ifs
  · rfl
  · exact hensure
  · exact hensure

end Store

/-- An operation that destroys a command leaves nothing of it but what it shows. -/
theorem Operation.command_of_destroyed {s : Store} {op : Operation} {c : CommandId}
    (hop : ∀ d ∈ op.operands, s.HasCommand d) (hlive : (s.command c).destroyed = false)
    (hdead : ((op.perform s).command c).destroyed = true) :
    (op.perform s).command c = (s.command c).destroy := by
  have hhas : s.HasCommand c := s.index_lt_of_live hlive
  -- Only two operations destroy anything.
  have hcontra : ((op.perform s).command c).destroyed = (s.command c).destroyed →
      (op.perform s).command c = (s.command c).destroy := by
    intro hsame
    rw [hsame, hlive] at hdead
    cases hdead
  have hlost : (op.perform s).command c = s.command c ∨
      (op.perform s).command c = (s.command c).destroy →
      (op.perform s).command c = (s.command c).destroy := by
    rintro (hsame | hlost)
    · exact hcontra (by rw [hsame])
    · exact hlost
  cases op with
  | create face =>
    refine hcontra ?_
    rw [perform, Store.create, Store.command_addCommand, if_neg (Store.ne_nextCommand hhas)]
  | addAttributes d flags =>
    refine hcontra ?_
    rw [perform, Store.addAttributes, Store.command_setCommand]
    split_ifs with hd
    · rw [hd.1]
    · rfl
  | register parent child => exact hcontra (s.destroyed_register parent child c)
  | unregister parent child => exact hlost (s.command_unregister parent child c)
  | destroy d => exact hlost (Store.command_of_burials (Store.burials_destroyAll s [d]) c)
  | copy d =>
    refine hcontra ?_
    rw [perform, (Store.extends_copy s d).command hhas]
  | makeAlias d keyword =>
    exact hcontra (Store.stays_makeAlias keyword (hop d (by simp [operands])) hhas).destroyed

namespace Store

variable {s t u : Store}

/-! ## What may be registered -/

theorem itemsOf_ensureRegistry_self (s : Store) (c : CommandId) :
    (s.ensureRegistry c).2.itemsOf (s.ensureRegistry c).1 = s.subcommands c := by
  rw [itemsOf_ensureRegistry]
  cases hr : s.registryOf c with
  | none =>
    rw [ensureRegistry_of_none _ hr, itemsOf,
      s.registry_of_not_hasRegistry s.not_hasRegistry_nextRegistry, subcommands, hr]
    rfl
  | some r => rw [ensureRegistry_of_some _ hr, subcommands_of_registryOf _ hr]

theorem hasRegistry_ensureRegistry (hs : s.Sound) {c : CommandId} (hc : s.HasCommand c) :
    (s.ensureRegistry c).2.HasRegistry (s.ensureRegistry c).1 :=
  (hs.of_changes (changes_ensureRegistry hc)).refs (registryOf_ensureRegistry hc)

/-- What may be registered under a command: a command with a keyword that is free there, which
is not destroyed and does not lead to the registry it is to join; and this registry, which is
made if there is none, must be open. -/
theorem register_eq_true_iff (hs : s.Sound) {parent : CommandId} (hparent : s.HasCommand parent)
    (child : CommandId) :
    (s.register parent child).value.1 = true ↔
      s.keyword child ≠ "" ∧ (s.command child).destroyed = false ∧
        ¬ (s.ensureRegistry parent).2.Closed (s.ensureRegistry parent).1 ∧
        ¬ (s.ensureRegistry parent).2.Leads child (s.ensureRegistry parent).1 ∧
        ∀ d ∈ s.subcommands parent, s.keyword d ≠ s.keyword child := by
  have hreaches := reaches_iff (hasRegistry_ensureRegistry hs hparent) child
  have hself : child = parent →
      (s.ensureRegistry parent).2.Leads child (s.ensureRegistry parent).1 := by
    rintro rfl
    exact leads_of_registryOf (registryOf_ensureRegistry hparent)
  have hfree : (s.ensureRegistry parent).2.findIn (s.ensureRegistry parent).1 (s.keyword child) =
      none ↔ ∀ d ∈ s.subcommands parent, s.keyword d ≠ s.keyword child := by
    simp only [findIn_eq_none_iff, itemsOf_ensureRegistry_self, keyword_ensureRegistry]
  rw [value_register, ← hreaches, ← hfree, Closed]
  rw [← hreaches] at hself
  generalize s.ensureRegistry parent = ensured at hself ⊢
  obtain ⟨r, t⟩ := ensured
  dsimp only at hself ⊢
  split_ifs with hchild hrefused
  · simp only [false_iff, not_and]
    intro hnamed hlive
    simp [hnamed, hlive] at hchild
  · simp only [false_iff, not_and]
    intro _ _ hopen hreaches' hnone
    obtain hsame | hleads | hfound | hclosed := hrefused
    · exact hreaches' (hself hsame)
    · exact hreaches' hleads
    · simp [hnone] at hfound
    · exact hopen hclosed
  · simp only [not_or, Bool.not_eq_true] at hchild hrefused
    obtain ⟨hnamed, hlive⟩ := hchild
    obtain ⟨-, hleads, hnone, hopen⟩ := hrefused
    have hnamed : s.keyword child ≠ "" := by simpa using hnamed
    have hnone : t.findIn r (s.keyword child) = none := by simpa using hnone
    simp [hnamed, hlive, hleads, hnone, hopen]

/-- A command that borrows no registry has, or is given, an open one. -/
theorem not_closed_ensureRegistry (hs : s.Sound) (howned : s.Owned) {c : CommandId}
    (hc : s.HasCommand c) (hborrows : ∀ r, (s.command c).children ≠ some (.borrowed r)) :
    ¬ (s.ensureRegistry c).2.Closed (s.ensureRegistry c).1 := by
  have howned' : (s.ensureRegistry c).2.Owned :=
    (changes_ensureRegistry hc).invariant hs howned fun _ h hchange => h.of_change hchange
  exact (howned'.held _).1 ⟨c, owns_ensureRegistry hc hborrows⟩

/-! ## Afterwards -/

/-- What an elementary change does to a command that is destroyed: it may give it its first
registry, and flags. -/
theorem Change.remains (h : Change s t) {c : CommandId} (hhas : s.HasCommand c)
    (hdead : (s.command c).destroyed = true) :
    (t.command c).destroyed = true ∧ (t.command c).handler = (s.command c).handler ∧
      (t.command c).context = (s.command c).context ∧
      ((t.command c).children = (s.command c).children ∨
        (t.command c).children = some (.owned s.nextRegistry)) := by
  have hne := ne_nextCommand hhas
  have hsame : t.command c = s.command c →
      (t.command c).destroyed = true ∧ (t.command c).handler = (s.command c).handler ∧
        (t.command c).context = (s.command c).context ∧
        ((t.command c).children = (s.command c).children ∨
          (t.command c).children = some (.owned s.nextRegistry)) := by
    intro heq
    rw [heq]
    exact ⟨hdead, rfl, rfl, .inl rfl⟩
  cases h with
  | create face => exact hsame ((s.command_addCommand _ c).trans (if_neg hne))
  | borrow hr hface => exact hsame ((s.command_addCommand _ c).trans (if_neg hne))
  | @found face items hitems hnamed hdistinct =>
    exact hsame (((s.addRegistry { items := items }).2.command_addCommand _ c).trans (if_neg hne))
  | mark d flags =>
    rw [addAttributes, command_setCommand]
    split_ifs with hd
    · rw [← hd.1]
      exact ⟨hdead, rfl, rfl, .inl rfl⟩
    · exact ⟨hdead, rfl, rfl, .inl rfl⟩
  | @furnish d hd hnone =>
    rw [Store.furnish, command_setCommand]
    split_ifs with hcd
    · rw [← hcd.1]
      exact ⟨hdead, rfl, rfl, .inr rfl⟩
    · exact ⟨hdead, rfl, rfl, .inl rfl⟩
  | enlist hr hd hnamed hfree hleads => exact hsame rfl
  | strike r position => exact hsame rfl
  | @bury d hd =>
    refine hsame ((s.command_bury d c).trans (if_neg ?_))
    rintro ⟨rfl, -⟩
    rw [hdead] at hd
    cases hd

/-- What is left of a command that is destroyed.  Its registry, if it has one, is its own and
was not there `before`. -/
structure Remains (before s : Store) (c : CommandId) : Prop where
  destroyed : (s.command c).destroyed = true
  handler : (s.command c).handler = none
  context : (s.command c).context = .value .null
  children : ∀ {children}, (s.command c).children = some children →
    ∃ r, children = .owned r ∧ ¬ before.HasRegistry r

theorem Remains.of_changes {c : CommandId} (h : Remains s s c) (hs : s.Sound)
    (hhas : s.HasCommand c) (hst : Changes s t) : Remains s t c := by
  let P : Store → Prop := fun u => Changes s u ∧ Remains s u c
  have hinv : P t := by
    refine hst.invariant hs ⟨.refl, h⟩ ?_
    rintro v w - ⟨hsv, hremains⟩ hvw
    obtain ⟨hdead, hhandler, hcontext, hchildren⟩ :=
      hvw.remains (hsv.hasCommand hhas) hremains.destroyed
    refine ⟨hsv.tail hvw, hdead, hhandler.trans hremains.handler,
      hcontext.trans hremains.context, fun {children} hsome => ?_⟩
    obtain hold | hnew := hchildren
    · exact hremains.children (hold.symm.trans hsome)
    · refine ⟨v.nextRegistry, ?_, fun hbefore => ?_⟩
      · rw [hnew] at hsome
        exact (Option.some.inj hsome).symm
      · exact v.not_hasRegistry_nextRegistry (hsv.hasRegistry hbefore)
  exact hinv.2

/-- A command without a registry is given one by two operations only. -/
theorem registryOf_perform {op : Operation} {c : CommandId}
    (hop : ∀ d ∈ op.operands, s.HasCommand d) (hhas : s.HasCommand c)
    (hfurnishes : op.furnishes c = false) (hnone : s.registryOf c = none) :
    (op.perform s).registryOf c = none := by
  have hensure : ∀ d, c ≠ d → (s.ensureRegistry d).2.registryOf c = none := by
    intro d hne
    cases hr : s.registryOf d with
    | none =>
      rw [ensureRegistry_of_none _ hr, registryOf, furnish, command_setCommand,
        if_neg (fun h => hne h.1)]
      exact hnone
    | some r => rwa [ensureRegistry_of_some _ hr]
  have hshrinks : Shrinks s (op.perform s) → (op.perform s).registryOf c = none := by
    intro hshrinks
    rw [Option.eq_none_iff_forall_ne_some]
    intro r hr
    rw [hshrinks.registryOf hr] at hnone
    cases hnone
  cases op with
  | create face =>
    rw [Operation.perform, create, registryOf_addCommand, if_neg (ne_nextCommand hhas)]
    exact hnone
  | addAttributes d flags => simpa [Operation.perform] using hnone
  | register parent child =>
    have hparent := hensure parent (Ne.symm (by simpa [Operation.furnishes] using hfurnishes))
    rw [Operation.perform, value_register]
    generalize s.ensureRegistry parent = ensured at hparent
    obtain ⟨r, t⟩ := ensured
    dsimp only
    split_ifs
    · exact hnone
    · exact hparent
    · exact hparent
  | unregister parent child =>
    refine hshrinks ?_
    rw [Operation.perform, value_unregister]
    split
    next r position d _ => exact (shrinks_strike s r position).trans (shrinks_destroy _ d)
    next => exact Shrinks.refl s
  | destroy d => exact hshrinks (shrinks_destroy s d)
  | copy d =>
    rw [Operation.perform, registryOf, (extends_copy s d).command hhas]
    exact hnone
  | makeAlias d keyword =>
    have hne := ne_makeAlias keyword (hop d (by simp [Operation.operands])) hhas
    rw [Operation.perform, registryOf, command_makeAlias_of_ne s d keyword hne]
    exact hensure d (Ne.symm (by simpa [Operation.furnishes] using hfurnishes))

theorem registryOf_performAll {ops : List Operation} {c : CommandId} (hs : s.Sound)
    (hops : s.Admits ops) (hhas : s.HasCommand c) (hnone : s.registryOf c = none)
    (hfurnishes : ∀ op ∈ ops, op.furnishes c = false) : (s.performAll ops).registryOf c = none := by
  induction ops generalizing s with
  | nil => exact hnone
  | cons op rest ih =>
    obtain ⟨hop, hrest⟩ := hops
    have hchanges := op.changes hs hop
    exact ih (hs.of_changes hchanges) hrest (hchanges.hasCommand hhas)
      (registryOf_perform hop hhas (hfurnishes op (by simp)) hnone)
      fun other hother => hfurnishes other (by simp [hother])

/-- **Destruction is final but for the registry.**  Let an operation destroy a command, directly
or with the commands above it, and let any operations follow, on this command too.  Then it is
destroyed, without handler and context, and destroying it again changes nothing.  It has no
registry as long as nothing was to be registered under it and no alias was made of it; one that
it has is a new one of its own, and is open.  Whether something can be registered under it does
not depend on its being destroyed. -/
theorem remains_performAll (h : s.Reachable) {op : Operation} {c : CommandId}
    (hop : ∀ d ∈ op.operands, s.HasCommand d) (hlive : (s.command c).destroyed = false)
    (ht : op.perform s = t) (hdead : (t.command c).destroyed = true) {ops : List Operation}
    (hops : t.Admits ops) (hu : t.performAll ops = u) :
    (u.command c).destroyed = true ∧ (u.command c).handler = none ∧
    (u.command c).context = .value .null ∧ (u.destroy c).value = u ∧
    ((∀ other ∈ ops, other.furnishes c = false) → (u.command c).children = none) ∧
    (∀ children, (u.command c).children = some children →
      ∃ r, children = .owned r ∧ ¬ t.HasRegistry r ∧ (u.registry r).destroyed = false) ∧
    ∀ child, (u.register c child).value.1 = true ↔
      u.keyword child ≠ "" ∧ (u.command child).destroyed = false ∧
        ¬ (u.ensureRegistry c).2.Leads child (u.ensureRegistry c).1 ∧
        ∀ d ∈ u.subcommands c, u.keyword d ≠ u.keyword child := by
  subst ht hu
  have hreachable : (op.perform s).Reachable := h.perform op hop
  have hhas := h.hasCommand_perform op hop (s.index_lt_of_live hlive)
  have hgone := op.command_of_destroyed hop hlive hdead
  have hnone : ((op.perform s).command c).children = none := by
    rw [hgone]
    rfl
  have hstart : Remains (op.perform s) (op.perform s) c := by
    refine ⟨hdead, by rw [hgone]; rfl, by rw [hgone]; rfl, fun hsome => ?_⟩
    rw [hnone] at hsome
    cases hsome
  have hchanges := hreachable.sound.changes hops.later
  have hlater := hreachable.later hops.later
  have hremains := hstart.of_changes hreachable.sound hhas hchanges
  refine ⟨hremains.destroyed, hremains.handler, hremains.context,
    value_destroy_of_destroyed hremains.destroyed, fun hfurnishes => ?_, fun children hsome => ?_,
    fun child => ?_⟩
  · have := registryOf_performAll hreachable.sound hops hhas (by rw [registryOf, hnone]; rfl)
      hfurnishes
    simpa [registryOf] using this
  · obtain ⟨r, rfl, hnew⟩ := hremains.children hsome
    have hopen := (hlater.owned.held r).1 ⟨c, hsome⟩
    exact ⟨r, rfl, hnew, by simpa [Closed] using hopen⟩
  · have hborrows : ∀ r, (((op.perform s).performAll ops).command c).children ≠
        some (.borrowed r) := by
      intro r hr
      obtain ⟨q, hq, -⟩ := hremains.children hr
      cases hq
    have hhas' := hchanges.hasCommand hhas
    have hopen := not_closed_ensureRegistry hlater.sound hlater.owned hhas' hborrows
    rw [register_eq_true_iff hlater.sound hhas']
    simp [hopen]

/-- A destroyed command, of which an alias is made: it has a registry again, and destroying it
again does not close that. -/
theorem revived_remains :
    (retired.command ⟨0⟩).destroyed = true ∧ revived = retired.performAll [.makeAlias ⟨0⟩ "c"] ∧
      (revived.command ⟨0⟩).destroyed = true ∧ (revived.command ⟨0⟩).handler = none ∧
      (revived.destroy ⟨0⟩).value = revived ∧
      (revived.command ⟨0⟩).children = some (.owned ⟨0⟩) ∧ ¬ retired.HasRegistry ⟨0⟩ ∧
      (revived.registry ⟨0⟩).destroyed = false := by
  have hempty : Reachable {} := ReflTransGen.refl
  have ha := hempty.perform (.create { keyword := "a" }) (by decide)
  have hb := ha.perform (.create { keyword := "b" }) (by decide)
  have hdead : (retired.command ⟨0⟩).destroyed = true := by
    rw [retired_eq_bury]
    decide
  have hops : retired.Admits [.makeAlias ⟨0⟩ "c"] := by
    refine reachable_retired.sound.admits ?_
    rw [retired_eq_bury]
    decide
  have hchildren : (revived.command ⟨0⟩).children = some (.owned ⟨0⟩) := by
    rw [revived, retired_eq_bury]
    decide
  obtain ⟨hdead', hhandler, -, hagain, -, hgiven, -⟩ :=
    remains_performAll hb (by decide) (by decide)
      (rfl : (Operation.destroy ⟨0⟩).perform _ = retired) hdead hops rfl
  obtain ⟨r, hr, hnew, hopen⟩ := hgiven _ hchildren
  cases hr
  exact ⟨hdead, rfl, hdead', hhandler, hagain, hchildren, hnew, hopen⟩

/-- Under a destroyed command `a`, which has no registry, the command `b` is registered; then
`a` has one. -/
theorem retired_register :
    retired.Reachable ∧ (retired.command ⟨0⟩).destroyed = true ∧
      (retired.command ⟨0⟩).children = none ∧ (retired.register ⟨0⟩ ⟨1⟩).value.1 = true ∧
      ((retired.register ⟨0⟩ ⟨1⟩).value.2.command ⟨0⟩).destroyed = true ∧
      ((retired.register ⟨0⟩ ⟨1⟩).value.2.command ⟨0⟩).children = some (.owned ⟨0⟩) := by
  refine ⟨reachable_retired, ?_⟩
  rw [retired_eq_bury]
  rw [value_register_of_bare (ensureRegistry_of_none _ (by decide)) (by decide) (by decide)
    (by decide) (by decide) (by decide) (by decide)]
  decide

end Store

end CommandShell
