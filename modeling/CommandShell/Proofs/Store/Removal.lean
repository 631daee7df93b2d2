import CommandShell.Proofs.Store.Duplicate
import CommandShell.Proofs.Store.Keywords
import CommandShell.Proofs.Store.Registration

/-!
# What unregistering a command does

Unregistering looks for a keyword, takes the one command that has it out of the registry, and
destroys it with what it owns.  This never comes back to the registry that the command was taken
from: whoever owns it stands above the command, and no command stands below itself.  So the
registry only loses the one command, its owner and the other commands that refer to it are as
they were, and registering a command and unregistering it again gives back the same
sub-commands.

Commands that are destroyed already are passed over.  One that was given a registry after its
destruction keeps it, and what it holds is not destroyed.
-/

namespace CommandShell.Store

open Relation

variable {s t : Store} {c d e : CommandId} {r q : RegistryId}

/-- The command has left the registry, where the others keep their order.  It is destroyed, and
so is what goes down with it.  Everything else is as it was. -/
structure Withdrawn (s : Store) (r : RegistryId) (d : CommandId) (t : Store) : Prop where
  hasCommand : ∀ e, t.HasCommand e ↔ s.HasCommand e
  hasRegistry : ∀ q, t.HasRegistry q ↔ s.HasRegistry q
  left : t.registry r = { s.registry r with items := (s.itemsOf r).filter (· ≠ d) }
  fallen : ∀ {e}, s.Falls d e → t.command e = (s.command e).destroy
  standing : ∀ {e}, ¬ s.Falls d e → t.command e = s.command e
  emptied : ∀ {e q}, s.Falls d e → s.Owns e q → t.registry q = { items := [], destroyed := true }
  kept : ∀ {q}, q ≠ r → (∀ e, s.Falls d e → ¬ s.Owns e q) → t.registry q = s.registry q

/-! ## There is no way back -/

theorem Contains.parent (h : s.Contains c d) : s.Parent c d := by
  obtain ⟨r, hown, hmem⟩ := h
  exact Store.parent_iff.2 ⟨r, hown.registryOf, hmem⟩

/-- Nothing that a command of the registry owns refers to the registry. -/
theorem Acyclic.registryOf_ne_of_contains (h : s.Acyclic) (hd : d ∈ s.itemsOf r)
    (hpath : ReflTransGen s.Contains d e) : s.registryOf e ≠ some r := by
  intro hr
  have hdown : ReflTransGen s.Parent d e := ReflTransGen.mono (fun _ _ => Contains.parent) _ _ hpath
  exact (h.grounded d).not_transGen (.tail' hdown (parent_iff.2 ⟨r, hr, hd⟩))

theorem contains_of_drags (h : ReflTransGen s.Drags d e) : ReflTransGen s.Contains d e :=
  ReflTransGen.mono (fun _ _ => Drags.contains) _ _ h

/-- What goes down with a command of the registry does not refer to the registry. -/
theorem Acyclic.registryOf_ne_of_falls (h : s.Acyclic) (hd : d ∈ s.itemsOf r)
    (hfalls : s.Falls d e) : s.registryOf e ≠ some r :=
  h.registryOf_ne_of_contains hd (contains_of_drags hfalls.2)

/-! ## Leaving the registry -/

theorem Drags.of_strike {position : Nat} (h : (s.strike r position).Drags c d) : s.Drags c d := by
  obtain ⟨hlive, q, hown, hopen, hmem⟩ := h
  refine ⟨hlive, q, hown, fun hclosed => hopen ((closed_strike r position q).2 hclosed), ?_⟩
  exact ((shrinks_strike s r position).itemsOf q).subset hmem

theorem Drags.strike {position : Nat} (h : s.Drags c d) (hr : s.registryOf c ≠ some r) :
    (s.strike r position).Drags c d := by
  obtain ⟨hlive, q, hown, hopen, hmem⟩ := h
  have hqr : q ≠ r := by
    rintro rfl
    exact hr hown.registryOf
  refine ⟨hlive, q, hown, fun hclosed => hopen ((closed_strike r position q).1 hclosed), ?_⟩
  rwa [itemsOf_strike, if_neg hqr]

/-- As there is no way back, the same commands go down whether or not the command has left the
registry. -/
theorem Acyclic.falls_strike_iff (h : s.Acyclic) (hd : d ∈ s.itemsOf r) (position : Nat)
    (e : CommandId) : (s.strike r position).Falls d e ↔ s.Falls d e := by
  refine and_congr Iff.rfl ⟨ReflTransGen.mono (fun _ _ => Drags.of_strike) _ _, fun hpath => ?_⟩
  induction hpath with
  | refl => exact .refl
  | tail hbefore hlast ih =>
    exact ih.tail (hlast.strike (h.registryOf_ne_of_contains hd (contains_of_drags hbefore)))

theorem Sound.nodup_itemsOf (hs : s.Sound) (r : RegistryId) : (s.itemsOf r).Nodup :=
  (hs.distinct r).of_map _

theorem filter_ne_concat {items : List CommandId} (h : c ∉ items) :
    (items ++ [c]).filter (· ≠ c) = items := by
  have hold : items.filter (· ≠ c) = items := by
    refine List.filter_eq_self.2 fun d hd => ?_
    simpa using fun hdc : d = c => h (hdc ▸ hd)
  rw [List.filter_append, hold]
  simp

/-- The command at its position is the only one that leaves. -/
theorem Sound.eraseIdx_position (hs : s.Sound) {position : Nat}
    (h : s.position? r d = some position) :
    (s.itemsOf r).eraseIdx position = (s.itemsOf r).filter (· ≠ d) := by
  have herase : (s.itemsOf r).eraseP (· == d) = (s.itemsOf r).eraseIdx position := by
    rw [List.eraseP_eq_eraseIdx, show (s.itemsOf r).findIdx? (· == d) = some position from h]
  rw [← herase, ← List.erase_eq_eraseP', (hs.nodup_itemsOf r).erase_eq_filter]
  simp [bne, beq_eq_decide]

theorem withdrawn_destroy (hs : s.Sound) (hacyclic : s.Acyclic) (howned : s.Owned)
    (hd : d ∈ s.itemsOf r) {position : Nat} (hposition : s.position? r d = some position) :
    s.Withdrawn r d ((s.strike r position).destroy d).value := by
  have hdown := (demolished_destroy (s.strike r position) d).congr fun e =>
    (hacyclic.falls_strike_iff hd position e).symm
  have hapart : ∀ e, s.Falls d e → ¬ s.Owns e r := fun e hfalls hown =>
    hacyclic.registryOf_ne_of_falls hd hfalls hown.registryOf
  have hhas : s.HasRegistry r := s.hasRegistry_of_mem_itemsOf hd
  refine ⟨fun e => hdown.hasCommand e, fun q => (hdown.hasRegistry q).trans ?_, ?_,
    fun hfalls => hdown.fallen _ hfalls, fun hnot => hdown.standing _ hnot, ?_, ?_⟩
  · simp [HasRegistry, strike, setRegistry]
  · rw [hdown.kept r fun e hfalls hown => absurd hown (hapart e hfalls), strike,
      registry_setRegistry, if_pos ⟨rfl, hhas⟩, hs.eraseIdx_position hposition]
  · intro e q hfalls hown
    exact hdown.emptied e q hfalls hown fun hclosed =>
      (howned.held q).1 ⟨e, hown⟩ ((closed_strike r position q).1 hclosed)
  · intro q hqr hq
    rw [hdown.kept q fun e hfalls hown => absurd hown (hq e hfalls), strike, registry_setRegistry,
      if_neg fun h => hqr h.1]

namespace Withdrawn

/-- What the command takes along is destroyed, now or before. -/
theorem destroyed_of_drags (h : s.Withdrawn r d t) (hpath : ReflTransGen s.Drags d e) :
    (t.command e).destroyed = true := by
  by_cases hlive : (s.command e).destroyed = false
  · rw [h.fallen ⟨hlive, hpath⟩]
    rfl
  · rw [h.standing fun hfalls => hlive hfalls.1]
    simpa using hlive

/-- Of those that the command owns, at whatever depth, each is destroyed unless it stands below
one that was destroyed before. -/
theorem destroyed_or (h : s.Withdrawn r d t) (howned : s.Owned)
    (hpath : ReflTransGen s.Contains d e) :
    (t.command e).destroyed = true ∨
      ∃ x, ReflTransGen s.Contains d x ∧ (s.command x).destroyed = true ∧
        TransGen s.Contains x e := by
  have hway : ReflTransGen s.Drags d e ∨ ∃ x, ReflTransGen s.Contains d x ∧
      (s.command x).destroyed = true ∧ TransGen s.Contains x e := by
    induction hpath with
    | refl => exact .inl .refl
    | @tail b e hbefore hlast ih =>
      obtain hdrags | ⟨x, hx, hdead, hdown⟩ := ih
      · by_cases hlive : (s.command b).destroyed = false
        · obtain ⟨q, hown, hmem⟩ := hlast
          exact .inl (hdrags.tail ⟨hlive, q, hown, (howned.held q).1 ⟨b, hown⟩, hmem⟩)
        · exact .inr ⟨b, hbefore, by simpa using hlive, .single hlast⟩
      · exact .inr ⟨x, hx, hdead, hdown.tail hlast⟩
  exact hway.imp_left h.destroyed_of_drags

/-- What the command does not own is as it was. -/
theorem command_of_not_contains (h : s.Withdrawn r d t) (he : ¬ ReflTransGen s.Contains d e) :
    t.command e = s.command e :=
  h.standing fun hfalls => he (contains_of_drags hfalls.2)

/-- Whoever refers to the registry is as before. -/
theorem command_of_registryOf (h : s.Withdrawn r d t) (hacyclic : s.Acyclic)
    (hd : d ∈ s.itemsOf r) (he : s.registryOf e = some r) : t.command e = s.command e :=
  h.command_of_not_contains fun hpath => hacyclic.registryOf_ne_of_contains hd hpath he

/-- So it sees the sub-commands that are left. -/
theorem subcommands (h : s.Withdrawn r d t) (hacyclic : s.Acyclic) (hd : d ∈ s.itemsOf r)
    (he : s.registryOf e = some r) : t.subcommands e = (s.subcommands e).filter (· ≠ d) := by
  have hsame : t.registryOf e = some r := by
    rw [registryOf, h.command_of_registryOf hacyclic hd he]
    exact he
  rw [subcommands_of_registryOf _ hsame, subcommands_of_registryOf _ he, Store.itemsOf, h.left]

end Withdrawn

/-! ## Unregistering -/

theorem value_unregister_of_mem (hs : s.Sound) {parent child : CommandId}
    (hr : s.registryOf parent = some r) (hd : d ∈ s.itemsOf r)
    (hkeyword : s.keyword d = s.keyword child) :
    ∃ position, s.position? r d = some position ∧
      (s.unregister parent child).value = (true, ((s.strike r position).destroy d).value) := by
  obtain ⟨position, hposition⟩ : ∃ position, s.position? r d = some position := by
    refine Option.ne_none_iff_exists'.1 fun hnone => ?_
    simpa using List.findIdx?_eq_none_iff.1 hnone d hd
  refine ⟨position, hposition, ?_⟩
  rw [value_unregister, hr, Option.bind_some, hs.findIn_eq_some_iff.2 ⟨hd, hkeyword⟩,
    Option.bind_some, hposition, Option.map_some]

theorem value_unregister_of_not {parent child : CommandId}
    (hnone : ∀ d ∈ s.subcommands parent, s.keyword d ≠ s.keyword child) :
    (s.unregister parent child).value = (false, s) := by
  cases hr : s.registryOf parent with
  | none =>
    rw [value_unregister, hr]
    rfl
  | some r =>
    rw [subcommands_of_registryOf _ hr] at hnone
    rw [value_unregister, hr, Option.bind_some, findIn_eq_none_iff.2 hnone]
    rfl

/-- Unregistering takes the sub-command with the keyword out. -/
theorem Reachable.withdrawn_unregister (h : s.Reachable) {parent child : CommandId}
    (hr : s.registryOf parent = some r) (hd : d ∈ s.itemsOf r)
    (hkeyword : s.keyword d = s.keyword child) :
    (s.unregister parent child).value.1 = true ∧
      s.Withdrawn r d (s.unregister parent child).value.2 := by
  obtain ⟨position, hposition, hvalue⟩ := value_unregister_of_mem h.sound hr hd hkeyword
  rw [hvalue]
  exact ⟨rfl, withdrawn_destroy h.sound h.acyclic h.owned hd hposition⟩

/-- A command that was registered just now is the one that is unregistered, and the
sub-commands are those from before. -/
theorem Reachable.unregister_register (h : s.Reachable) {parent child : CommandId}
    (hparent : s.HasCommand parent) (htrue : (s.register parent child).value.1 = true) :
    ((s.register parent child).value.2.unregister parent child).value.1 = true ∧
      ((s.register parent child).value.2.unregister parent child).value.2.subcommands parent =
        s.subcommands parent := by
  have hprovides := provides_ensureRegistry h.sound hparent
  have hhas := hasRegistry_ensureRegistry h.sound hparent
  have hchild : s.HasCommand child := by
    obtain ⟨-, hlive, -⟩ := (register_eq_true_iff h.sound hparent child).1 htrue
    exact s.index_lt_of_live hlive
  have hafter : (s.register parent child).value.2.Reachable :=
    h.perform (.register parent child) (by simp [Operation.operands, hparent, hchild])
  have hfree := ((register_eq_true_iff h.sound hparent child).1 htrue).2.2.2.2
  rw [value_register_of_true htrue] at hafter ⊢
  have hr : ((s.ensureRegistry parent).2.enlist (s.ensureRegistry parent).1 child).registryOf
      parent = some (s.ensureRegistry parent).1 := hprovides.registryOf
  have hitems : ((s.ensureRegistry parent).2.enlist (s.ensureRegistry parent).1 child).itemsOf
      (s.ensureRegistry parent).1 = s.subcommands parent ++ [child] := by
    rw [itemsOf_enlist _ hhas, if_pos rfl, hprovides.itemsOf_self]
  have hmem := hitems ▸ List.mem_append_right (s.subcommands parent) (List.mem_singleton_self child)
  obtain ⟨hdone, hgone⟩ := hafter.withdrawn_unregister hr hmem rfl
  refine ⟨hdone, ?_⟩
  rw [hgone.subcommands hafter.acyclic hmem hr, subcommands_of_registryOf _ hr, hitems,
    filter_ne_concat fun hold => hfree child hold rfl]

/-- **What unregistering a command does.**  It succeeds just in case a command with this keyword
stands in the registry of the parent, owned or borrowed; if not, nothing changes.  This command
is the only one with the keyword.  It leaves the registry, where the others keep their order,
and is destroyed with what it owns, save what stands below commands that were destroyed before.
What it does not own is as it was, in particular the parent and whoever else refers to the
registry, its owner among them; and the registry is destroyed only if it was.  So registering a
command and unregistering it gives back the sub-commands from before. -/
theorem unregister_withdraws (h : s.Reachable) {parent : CommandId} (hparent : s.HasCommand parent)
    (child : CommandId) :
    ((s.unregister parent child).value.1 = true ↔
      ∃ r ∈ s.registryOf parent, ∃ d ∈ s.itemsOf r, s.keyword d = s.keyword child) ∧
    ((s.unregister parent child).value.1 = false → (s.unregister parent child).value.2 = s) ∧
    (∀ t, (s.unregister parent child).value = (true, t) → ∃ r d,
      s.registryOf parent = some r ∧
      (∀ e, e ∈ s.itemsOf r ∧ s.keyword e = s.keyword child ↔ e = d) ∧
      s.Withdrawn r d t ∧ (t.command d).destroyed = true ∧
      (∀ e, ReflTransGen s.Contains d e → (t.command e).destroyed = true ∨
        ∃ x, ReflTransGen s.Contains d x ∧ (s.command x).destroyed = true ∧
          TransGen s.Contains x e) ∧
      (∀ e, ¬ ReflTransGen s.Contains d e → t.command e = s.command e) ∧
      (∀ e, s.registryOf e = some r → t.command e = s.command e) ∧
      (t.registry r).destroyed = (s.registry r).destroyed) ∧
    ((s.register parent child).value.1 = true →
      ((s.register parent child).value.2.unregister parent child).value.1 = true ∧
      ((s.register parent child).value.2.unregister parent child).value.2.subcommands parent =
        s.subcommands parent) := by
  have hnot : (¬ ∃ r ∈ s.registryOf parent, ∃ d ∈ s.itemsOf r, s.keyword d = s.keyword child) →
      (s.unregister parent child).value = (false, s) := fun hnone =>
    value_unregister_of_not fun d hd hkeyword => by
      obtain ⟨r, hr, hd⟩ := parent_iff.1 hd
      exact hnone ⟨r, hr, d, hd, hkeyword⟩
  by_cases hfound : ∃ r ∈ s.registryOf parent, ∃ d ∈ s.itemsOf r, s.keyword d = s.keyword child
  · obtain ⟨r, hr, d, hd, hkeyword⟩ := hfound
    obtain ⟨hdone, hgone⟩ := h.withdrawn_unregister hr hd hkeyword
    refine ⟨⟨fun _ => ⟨r, hr, d, hd, hkeyword⟩, fun _ => hdone⟩, fun hfalse => ?_,
      fun t ht => ?_, h.unregister_register hparent⟩
    · rw [hdone] at hfalse
      cases hfalse
    · rw [ht] at hgone
      refine ⟨r, d, hr, fun e => ?_, hgone, hgone.destroyed_of_drags .refl,
        fun e => hgone.destroyed_or h.owned, fun e => hgone.command_of_not_contains,
        fun e => hgone.command_of_registryOf h.acyclic hd, by rw [hgone.left]⟩
      constructor
      · rintro ⟨he, hsame⟩
        exact List.inj_on_of_nodup_map (h.sound.distinct r) he hd (hsame.trans hkeyword.symm)
      · rintro rfl
        exact ⟨hd, hkeyword⟩
  · rw [hnot hfound]
    refine ⟨⟨fun htrue => ?_, fun hyes => absurd hyes hfound⟩, fun _ => rfl, fun t ht => ?_,
      h.unregister_register hparent⟩
    · cases htrue
    · cases ht

/-! ## A command that was destroyed where it stood -/

theorem Reachable.enlist_of_bare (h : s.Reachable) {parent child : CommandId}
    (hparent : s.HasCommand parent) (hensure : s.ensureRegistry parent = (r, t))
    (hnamed : s.keyword child ≠ "") (hlive : (s.command child).destroyed = false)
    (hne : child ≠ parent) (hbare : t.registryOf child = none)
    (hfree : ∀ d ∈ t.itemsOf r, t.keyword d ≠ s.keyword child)
    (hopen : (t.registry r).destroyed = false) : (t.enlist r child).Reachable := by
  have hafter := h.perform (.register parent child)
    (by simp [Operation.operands, hparent, show s.HasCommand child from s.index_lt_of_live hlive])
  rwa [Operation.perform, value_register_of_bare hensure hnamed hlive hne hbare hfree hopen]
    at hafter

/-- The command `b` stands below `a` and an alias of `a`; the command `c` is registered
nowhere. -/
def couple : Store :=
  ([Operation.create { keyword := "a" }, .create { keyword := "b" }, .create { keyword := "c" },
    .makeAlias ⟨0⟩ "d"].foldl Operation.perform {}).enlist ⟨0⟩ ⟨1⟩

theorem reachable_couple : couple.Reachable := by
  have hempty : Reachable {} := ReflTransGen.refl
  have ha := hempty.perform (.create { keyword := "a" }) (by decide)
  have hb := ha.perform (.create { keyword := "b" }) (by decide)
  have hc := hb.perform (.create { keyword := "c" }) (by decide)
  have hd := hc.perform (.makeAlias ⟨0⟩ "d") (by decide)
  exact hd.enlist_of_bare (show HasCommand _ ⟨0⟩ by decide) (ensureRegistry_of_some _ (by decide))
    (by decide) (by decide) (by decide) (by decide) (by decide) (by decide)

/-- Then `c` is registered under `b`. -/
def lineage : Store := (couple.furnish ⟨1⟩).enlist ⟨1⟩ ⟨2⟩

theorem reachable_lineage : lineage.Reachable :=
  reachable_couple.enlist_of_bare (show couple.HasCommand ⟨1⟩ by decide)
    (ensureRegistry_of_none _ (by decide)) (by decide) (by decide) (by decide) (by decide)
    (by decide) (by decide)

/-- Through the alias, `b` is unregistered: `c` goes with it, but `a`, the alias and the
registry that they share are not destroyed. -/
theorem lineage_unregister_withdraws :
    lineage.Reachable ∧ lineage.HasCommand ⟨3⟩ ∧
      (lineage.unregister ⟨3⟩ ⟨1⟩).value.1 = true ∧
      ((lineage.unregister ⟨3⟩ ⟨1⟩).value.2.command ⟨1⟩).destroyed = true ∧
      ((lineage.unregister ⟨3⟩ ⟨1⟩).value.2.command ⟨2⟩).destroyed = true ∧
      (lineage.unregister ⟨3⟩ ⟨1⟩).value.2.command ⟨0⟩ = lineage.command ⟨0⟩ ∧
      (lineage.unregister ⟨3⟩ ⟨1⟩).value.2.registry ⟨0⟩ = {} := by
  have hhas : lineage.HasCommand ⟨3⟩ := by decide
  obtain ⟨hiff, -, hgone, -⟩ := unregister_withdraws reachable_lineage hhas ⟨1⟩
  have hdone := hiff.2 ⟨⟨0⟩, by decide, ⟨1⟩, by decide, rfl⟩
  obtain ⟨r, d, hr, honly, hwithdrawn, hdead, -, -, hshared, -⟩ :=
    hgone (lineage.unregister ⟨3⟩ ⟨1⟩).value.2 (Prod.ext hdone rfl)
  have hr' : r = ⟨0⟩ := Option.some.inj (hr.symm.trans (by decide))
  subst hr'
  have hd : ⟨1⟩ = d := (honly ⟨1⟩).1 (by decide)
  subst hd
  have hfalls : lineage.Falls ⟨1⟩ ⟨2⟩ := ⟨by decide, .single (drags_iff.2 (by decide))⟩
  refine ⟨reachable_lineage, hhas, hdone, hdead, ?_, hshared ⟨0⟩ (by decide), ?_⟩
  · rw [hwithdrawn.fallen hfalls]
    rfl
  · rw [hwithdrawn.left]
    decide

/-- But if `b` is destroyed first, and `c` registered under it after that, … -/
def relic : Store := ((couple.bury ⟨1⟩).furnish ⟨1⟩).enlist ⟨1⟩ ⟨2⟩

theorem reachable_relic : relic.Reachable := by
  have hdestroyed := reachable_couple.perform (.destroy ⟨1⟩) (by decide)
  rw [Operation.perform, value_destroy_of_live (by decide) fun r hr => by cases hr] at hdestroyed
  exact hdestroyed.enlist_of_bare (show HasCommand _ ⟨1⟩ by decide)
    (ensureRegistry_of_none _ (by decide)) (by decide) (by decide) (by decide) (by decide)
    (by decide) (by decide)

/-- … then `b` owns a registry that holds `c`, and when it is unregistered, `c` is not
destroyed. -/
theorem relic_unregister :
    relic.Reachable ∧ relic.Contains ⟨1⟩ ⟨2⟩ ∧ (relic.command ⟨2⟩).destroyed = false ∧
      (relic.unregister ⟨0⟩ ⟨1⟩).value.1 = true ∧
      ⟨1⟩ ∈ relic.subcommands ⟨0⟩ ∧
      ⟨1⟩ ∉ (relic.unregister ⟨0⟩ ⟨1⟩).value.2.subcommands ⟨0⟩ ∧
      ((relic.unregister ⟨0⟩ ⟨1⟩).value.2.command ⟨2⟩).destroyed = false := by
  have hr : relic.registryOf ⟨0⟩ = some ⟨0⟩ := by decide
  have hitem : ⟨1⟩ ∈ relic.itemsOf ⟨0⟩ := by decide
  obtain ⟨position, hposition, hvalue⟩ : ∃ position, relic.position? ⟨0⟩ ⟨1⟩ = some position ∧
      (relic.unregister ⟨0⟩ ⟨1⟩).value = (true, ((relic.strike ⟨0⟩ position).destroy ⟨1⟩).value) :=
    value_unregister_of_mem reachable_relic.sound hr hitem rfl
  have hfirst : relic.position? ⟨0⟩ ⟨1⟩ = some 0 := by decide
  cases hfirst.symm.trans hposition
  rw [hvalue, value_destroy_of_destroyed (by decide)]
  exact ⟨reachable_relic, ⟨⟨1⟩, by decide, by decide⟩, by decide, rfl, by decide, by decide,
    by decide⟩

end CommandShell.Store
