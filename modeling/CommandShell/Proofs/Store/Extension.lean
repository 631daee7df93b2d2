import CommandShell.Proofs.Store.Operation

/-!
# What a copy adds to the store

A copy is planted part by part: commands are made from the leaves up, and a registry is made
when all that it is to hold is there.  Nothing that was in the store before is touched, and
whatever is new holds only what is new.
-/

namespace CommandShell.Store

variable {s t u : Store}

theorem hasCommand_addCommand_iff (x : Command) (c : CommandId) :
    (s.addCommand x).2.HasCommand c ↔ s.HasCommand c ∨ c = s.nextCommand := by
  obtain ⟨i⟩ := c
  simp only [HasCommand, addCommand, nextCommand, List.length_append, List.length_singleton,
    CommandId.mk.injEq]
  omega

theorem hasRegistry_addRegistry_iff (x : Registry) (r : RegistryId) :
    (s.addRegistry x).2.HasRegistry r ↔ s.HasRegistry r ∨ r = s.nextRegistry := by
  obtain ⟨i⟩ := r
  simp only [HasRegistry, addRegistry, nextRegistry, List.length_append, List.length_singleton,
    RegistryId.mk.injEq]
  omega

/-- The store was added to and otherwise left alone.  What is new is not destroyed, and new
registries hold new commands. -/
structure Extends (s t : Store) : Prop where
  hasCommand : ∀ {c}, s.HasCommand c → t.HasCommand c
  hasRegistry : ∀ {r}, s.HasRegistry r → t.HasRegistry r
  command : ∀ {c}, s.HasCommand c → t.command c = s.command c
  registry : ∀ {r}, s.HasRegistry r → t.registry r = s.registry r
  live : ∀ {c}, t.HasCommand c → ¬ s.HasCommand c → (t.command c).destroyed = false
  items : ∀ {r c}, ¬ s.HasRegistry r → c ∈ t.itemsOf r → t.HasCommand c ∧ ¬ s.HasCommand c

namespace Extends

theorem refl (s : Store) : s.Extends s where
  hasCommand := id
  hasRegistry := id
  command _ := rfl
  registry _ := rfl
  live hc hnew := absurd hc hnew
  items hr hc := absurd (s.hasRegistry_of_mem_itemsOf hc) hr

theorem trans (hst : s.Extends t) (htu : t.Extends u) : s.Extends u where
  hasCommand hc := htu.hasCommand (hst.hasCommand hc)
  hasRegistry hr := htu.hasRegistry (hst.hasRegistry hr)
  command hc := (htu.command (hst.hasCommand hc)).trans (hst.command hc)
  registry hr := (htu.registry (hst.hasRegistry hr)).trans (hst.registry hr)
  live {c} hu hs := by
    by_cases ht : t.HasCommand c
    · rw [htu.command ht]
      exact hst.live ht hs
    · exact htu.live hu ht
  items {r c} hs hc := by
    by_cases ht : t.HasRegistry r
    · rw [itemsOf, htu.registry ht] at hc
      obtain ⟨hmade, hnew⟩ := hst.items hs hc
      exact ⟨htu.hasCommand hmade, hnew⟩
    · obtain ⟨hmade, hnew⟩ := htu.items ht hc
      exact ⟨hmade, fun hold => hnew (hst.hasCommand hold)⟩

/-- One more command is made, and is not destroyed. -/
theorem addCommand (h : s.Extends t) {x : Command} (hx : x.destroyed = false) :
    s.Extends (t.addCommand x).2 where
  hasCommand hc := (hasCommand_addCommand_iff x _).2 (.inl (h.hasCommand hc))
  hasRegistry hr := h.hasRegistry hr
  command hc := by
    rw [command_addCommand, if_neg (ne_nextCommand (h.hasCommand hc))]
    exact h.command hc
  registry hr := h.registry hr
  live {c} hmade hnew := by
    rw [command_addCommand]
    split_ifs with hc
    · exact hx
    · exact h.live (((hasCommand_addCommand_iff x c).1 hmade).resolve_right hc) hnew
  items hr hc := by
    obtain ⟨hmade, hnew⟩ := h.items hr hc
    exact ⟨(hasCommand_addCommand_iff x _).2 (.inl hmade), hnew⟩

/-- One more registry is made, of new commands. -/
theorem addRegistry (h : s.Extends t) {ids : List CommandId}
    (hids : ∀ c ∈ ids, t.HasCommand c ∧ ¬ s.HasCommand c) :
    s.Extends (t.addRegistry { items := ids }).2 where
  hasCommand hc := h.hasCommand hc
  hasRegistry hr := (hasRegistry_addRegistry_iff _ _).2 (.inl (h.hasRegistry hr))
  command hc := h.command hc
  registry {r} hr := by
    have hne : r ≠ t.nextRegistry := by
      rintro rfl
      exact t.not_hasRegistry_nextRegistry (h.hasRegistry hr)
    rw [registry_addRegistry, if_neg hne]
    exact h.registry hr
  live hmade hnew := h.live hmade hnew
  items {r c} hr hc := by
    rw [itemsOf, registry_addRegistry] at hc
    split_ifs at hc
    · exact hids c hc
    · exact h.items hr hc

end Extends

mutual

/-- Planting a cutting adds to the store; its top is new. -/
theorem extends_plant (s : Store) : ∀ k : Cutting, s.Extends (s.plant k).2 ∧
    (s.plant k).2.HasCommand (s.plant k).1 ∧ ¬ s.HasCommand (s.plant k).1
  | .bare face =>
    ⟨(Extends.refl s).addCommand rfl, (hasCommand_addCommand_iff _ _).2 (.inr rfl),
      s.not_hasCommand_nextCommand⟩
  | .borrowing face r =>
    ⟨(Extends.refl s).addCommand rfl, (hasCommand_addCommand_iff _ _).2 (.inr rfl),
      s.not_hasCommand_nextCommand⟩
  | .owning face items => by
    obtain ⟨hextends, hids⟩ := extends_plantAll s items
    refine ⟨(hextends.addRegistry hids).addCommand rfl,
      (hasCommand_addCommand_iff _ _).2 (.inr rfl), fun hold => ?_⟩
    exact (s.plantAll items).2.not_hasCommand_nextCommand (hextends.hasCommand hold)

/-- Planting cuttings one after another adds to the store; their tops are new. -/
theorem extends_plantAll (s : Store) : ∀ ks : List Cutting, s.Extends (s.plantAll ks).2 ∧
    ∀ c ∈ (s.plantAll ks).1, (s.plantAll ks).2.HasCommand c ∧ ¬ s.HasCommand c
  | [] => ⟨Extends.refl s, by simp [plantAll]⟩
  | k :: ks => by
    obtain ⟨hfirst, hmade, hnew⟩ := extends_plant s k
    obtain ⟨hrest, hids⟩ := extends_plantAll (s.plant k).2 ks
    refine ⟨hfirst.trans hrest, ?_⟩
    simp only [plantAll, List.mem_cons, forall_eq_or_imp]
    refine ⟨⟨hrest.hasCommand hmade, hnew⟩, fun c hc => ?_⟩
    obtain ⟨hmade', hnew'⟩ := hids c hc
    exact ⟨hmade', fun hold => hnew' (hfirst.hasCommand hold)⟩

end

/-- **Copying a command adds to the store and touches nothing in it.** -/
theorem extends_copy (s : Store) (c : CommandId) : s.Extends (s.copy c).2 :=
  (extends_plant s (s.cutting c)).1

end CommandShell.Store
