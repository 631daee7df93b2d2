import CommandShell.Proofs.Store.Finality

/-!
# Registries that hold destroyed commands

Unregistering takes a command out of one registry and destroys it, with all that it owns.  A
command may stand in several registries, and it does not know them: those that are not on the
way keep it, destroyed as it is.  This is the only way to such a registry as long as commands
are destroyed by unregistering alone.  A command that stands in one registry at most when it is
destroyed is held by none afterwards, and never again, as a destroyed command cannot be
registered.
-/

namespace CommandShell

namespace Store

variable {s t : Store} {c : CommandId}

/-- The command stands in one registry at most. -/
def StandsOnce (s : Store) (c : CommandId) : Prop :=
  ∀ ⦃r q⦄, c ∈ s.itemsOf r → c ∈ s.itemsOf q → r = q

/-- If the command is destroyed, no registry holds it. -/
def Cleared (s : Store) (c : CommandId) : Prop :=
  (s.command c).destroyed = true → ∀ r, c ∉ s.itemsOf r

theorem StandsOnce.of_shrinks (h : s.StandsOnce c) (hst : Shrinks s t) : t.StandsOnce c :=
  fun _ _ hr hq => h ((hst.itemsOf _).subset hr) ((hst.itemsOf _).subset hq)

/-- Registries stay as they are, and so does the command if it was there. -/
theorem Cleared.of_same (h : s.Cleared c) (hs : s.Sound)
    (hitems : ∀ r, t.itemsOf r = s.itemsOf r)
    (hcommand : s.HasCommand c → (t.command c).destroyed = (s.command c).destroyed) :
    t.Cleared c := by
  intro hdead r hmem
  rw [hitems] at hmem
  rw [hcommand (hs.items hmem)] at hdead
  exact h hdead r hmem

/-! ## Unregistering -/

/-- While the `pending` commands are destroyed: no registry holds the command if it is destroyed or
among them, and at most one does otherwise. -/
structure Departs (s : Store) (pending : List CommandId) (c : CommandId) : Prop where
  cleared : s.Cleared c
  once : s.StandsOnce c
  gone : c ∈ pending → ∀ r, c ∉ s.itemsOf r

theorem Departs.tail {d : CommandId} {rest : List CommandId} (h : s.Departs (d :: rest) c) :
    s.Departs rest c :=
  ⟨h.cleared, h.once, fun hc => h.gone (List.mem_cons_of_mem d hc)⟩

theorem Departs.bury {d : CommandId} {rest : List CommandId} (h : s.Departs (d :: rest) c) :
    (s.bury d).Departs rest c := by
  have hshrinks := shrinks_bury s d
  refine ⟨fun hdead r hmem => ?_, h.once.of_shrinks hshrinks, fun hc r hmem => ?_⟩
  · have hold := (hshrinks.itemsOf r).subset hmem
    rw [command_bury] at hdead
    split_ifs at hdead with hcd
    · exact h.gone (by simp [hcd.1]) r hold
    · exact h.cleared hdead r hold
  · exact h.gone (List.mem_cons_of_mem d hc) r ((hshrinks.itemsOf r).subset hmem)

/-- What the next command owns is in no registry once that of the command is empty. -/
theorem Departs.bury_append {d : CommandId} {rest : List CommandId} {r : RegistryId}
    (h : s.Departs (d :: rest) c) (hr : (s.command d).children = some (.owned r))
    (hopen : (s.registry r).destroyed = false) :
    (s.bury d).Departs (s.itemsOf r ++ rest) c := by
  have hburied := h.bury
  refine ⟨hburied.cleared, hburied.once, fun hc q hmem => ?_⟩
  obtain hitem | hrest := List.mem_append.1 hc
  · have hold := ((shrinks_bury s d).itemsOf q).subset hmem
    -- It stood in this registry only, which is empty now.
    obtain rfl := h.once hitem hold
    rw [itemsOf_bury, if_pos ⟨hr, hopen⟩] at hmem
    cases hmem
  · exact hburied.gone hrest q hmem

theorem Departs.destroyAll {pending : List CommandId} (h : s.Departs pending c) :
    (s.destroyAll pending).value.Cleared c := by
  fun_induction Store.destroyAll s pending with
  | case1 s => exact h.cleared
  | case2 s d rest hdead ih => simpa using ih h.tail
  | case3 s d rest hlive r hr hclosed ih =>
    have hburied := h.bury
    rw [bury_of_owned hr, if_pos hclosed] at hburied
    simpa using ih hburied
  | case4 s d rest hlive r hr hopen ih =>
    have hburied := h.bury_append hr (by simpa using hopen)
    rw [bury_of_owned hr, if_neg hopen] at hburied
    exact ih hburied
  | case5 s d rest hlive hr ih =>
    have hburied := h.bury
    rw [bury_of_not_owned hr] at hburied
    exact ih hburied

/-- The command that is struck from its only registry is in none. -/
theorem departs_strike (hs : s.Sound) (h : s.Cleared c) (honce : s.StandsOnce c)
    {r : RegistryId} {k : String} {d : CommandId} {position : Nat} (hd : s.findIn r k = some d)
    (hposition : s.position? r d = some position) : (s.strike r position).Departs [d] c := by
  have hshrinks := shrinks_strike s r position
  refine ⟨fun hdead q hmem => h hdead q ((hshrinks.itemsOf q).subset hmem),
    honce.of_shrinks hshrinks, fun hc q hmem => ?_⟩
  obtain rfl := List.mem_singleton.1 hc
  obtain ⟨hitem, hkeyword⟩ := hs.findIn_eq_some_iff.1 hd
  obtain rfl := honce hitem ((hshrinks.itemsOf q).subset hmem)
  exact hs.keyword_ne_of_strike hd hposition hmem hkeyword

theorem Cleared.unregister (h : s.Cleared c) (hs : s.Sound) (parent child : CommandId)
    (honce : (s.command c).destroyed = false →
      ((s.unregister parent child).value.2.command c).destroyed = true → s.StandsOnce c) :
    (s.unregister parent child).value.2.Cleared c := by
  rw [value_unregister] at honce ⊢
  split at honce
  next r position d hfound =>
    intro hdead q hmem
    have hshrinks := (shrinks_strike s r position).trans (shrinks_destroy _ d)
    cases hbefore : (s.command c).destroyed with
    | true => exact h hbefore q ((hshrinks.itemsOf q).subset hmem)
    | false =>
      simp only [Option.bind_eq_some_iff, Option.map_eq_some_iff, Prod.mk.injEq] at hfound
      obtain ⟨r', -, d', hd, position', hposition, rfl, rfl, rfl⟩ := hfound
      have hdeparts := departs_strike hs h (honce hbefore hdead) hd hposition
      exact hdeparts.destroyAll hdead q hmem
  next => exact h

/-! ## The other operations -/

theorem Cleared.register (h : s.Cleared c) (hs : s.Sound) {parent : CommandId}
    (hparent : s.HasCommand parent) (child : CommandId) :
    (s.register parent child).value.2.Cleared c := by
  have hhas := hasRegistry_ensureRegistry hs hparent
  have hitems := s.itemsOf_ensureRegistry parent
  have hdestroyed := s.destroyed_ensureRegistry parent
  have hensured := h.of_same hs hitems fun _ => hdestroyed c
  rw [value_register]
  generalize s.ensureRegistry parent = ensured at hhas hitems hdestroyed hensured
  obtain ⟨r, t⟩ := ensured
  dsimp only at hhas hitems hdestroyed hensured ⊢
  split_ifs with hchild hrefused
  · exact h
  · exact hensured
  · intro hdead q hmem
    have hmem' : c ∈ t.itemsOf q ∨ c = child := by
      rw [itemsOf_enlist _ hhas] at hmem
      split_ifs at hmem with hq
      · simpa [hq] using hmem
      · exact .inl hmem
    obtain hold | rfl := hmem'
    · exact hensured hdead q hold
    · -- What is destroyed is not registered.
      have hlive : (s.command c).destroyed = false := by simp_all
      rw [show (t.enlist r c).command c = t.command c from rfl, hdestroyed, hlive] at hdead
      cases hdead

theorem Cleared.of_extends (h : s.Cleared c) (hs : s.Sound) (hst : s.Extends t) :
    t.Cleared c := by
  intro hdead r hmem
  by_cases hr : s.HasRegistry r
  · rw [itemsOf, hst.registry hr] at hmem
    rw [hst.command (hs.items hmem)] at hdead
    exact h hdead r hmem
  · obtain ⟨hmade, hnew⟩ := hst.items hr hmem
    rw [hst.live hmade hnew] at hdead
    cases hdead

end Store

/-- Every operation but direct destruction keeps a command cleared, unless it destroys one that
stands in two registries. -/
theorem Operation.cleared {s : Store} {op : Operation} {c : CommandId} (hs : s.Sound)
    (hop : ∀ d ∈ op.operands, s.HasCommand d) (hspare : ∀ d, op ≠ .destroy d) (h : s.Cleared c)
    (honce : (s.command c).destroyed = false → ((op.perform s).command c).destroyed = true →
      s.StandsOnce c) : (op.perform s).Cleared c := by
  cases op with
  | create face => exact h.of_extends hs ((Store.Extends.refl s).addCommand rfl)
  | addAttributes d flags =>
    refine h.of_same hs (fun _ => rfl) fun _ => ?_
    rw [perform, Store.addAttributes, Store.command_setCommand]
    split_ifs with hd
    · rw [hd.1]
    · rfl
  | register parent child => exact h.register hs (hop parent (by simp [operands])) child
  | unregister parent child => exact h.unregister hs parent child honce
  | destroy d => exact absurd rfl (hspare d)
  | copy d => exact h.of_extends hs (s.extends_copy d)
  | makeAlias d keyword =>
    exact h.of_same hs (s.itemsOf_makeAlias d keyword) fun hhas =>
      (Store.stays_makeAlias keyword (hop d (by simp [operands])) hhas).destroyed

namespace Store

variable {s : Store} {c : CommandId}

/-- If one of the operations destroys the command, it stands in one registry at most before
that. -/
def DestroyedAlone (s : Store) (c : CommandId) : List Operation → Prop
  | [] => True
  | op :: rest =>
    ((s.command c).destroyed = false → ((op.perform s).command c).destroyed = true →
      s.StandsOnce c) ∧ DestroyedAlone (op.perform s) c rest

theorem cleared_empty (c : CommandId) : Cleared {} c :=
  fun _ _ => List.not_mem_nil

/-- **A command that stands in one registry at most when it is destroyed is in none later.** -/
theorem cleared_performAll {ops : List Operation} (hs : s.Sound) (hops : s.Admits ops)
    (hspare : ∀ d, .destroy d ∉ ops) (halone : s.DestroyedAlone c ops) (h : s.Cleared c) :
    (s.performAll ops).Cleared c := by
  induction ops generalizing s with
  | nil => exact h
  | cons op rest ih =>
    obtain ⟨hop, hrest⟩ := hops
    obtain ⟨honce, halone'⟩ := halone
    refine ih (hs.of_changes (op.changes hs hop)) hrest
      (fun d hd => hspare d (List.mem_cons_of_mem op hd)) halone' (op.cleared hs hop ?_ h honce)
    rintro d rfl
    exact hspare d List.mem_cons_self

end Store

end CommandShell
