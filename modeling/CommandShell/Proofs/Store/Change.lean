import CommandShell.Proofs.Store.Reach

/-!
# Elementary changes of a store

Whatever the operations on commands do, they do it in steps of eight kinds.  Each kind
states under which conditions it happens; an invariant of the store is proved once for
every kind and then holds after every operation.

`Sound` collects what the conditions themselves rest on: references lead to things that
exist, siblings have distinct keywords, and only aliases borrow.

## Main definitions

* `Store.Sound` — references exist, keywords are there and differ, borrowers are aliases.
* `Store.Change` — one elementary change.
* `Store.Shrinks` — nothing is added.
-/

namespace CommandShell.Store

/-- References exist, sibling keywords are there and differ, borrowers are aliases. -/
structure Sound (s : Store) : Prop where
  refs : ∀ {c r}, s.registryOf c = some r → s.HasRegistry r
  items : ∀ {r c}, c ∈ s.itemsOf r → s.HasCommand c
  named : ∀ {r c}, c ∈ s.itemsOf r → s.keyword c ≠ ""
  distinct : ∀ r, ((s.itemsOf r).map s.keyword).Nodup
  aliased : ∀ {c r}, (s.command c).children = some (.borrowed r) →
    (s.command c).attributes.isAlias = true

/-- One elementary change of a store.  A command is made, without sub-commands, as an alias that
borrows a registry, or with a registry of its own; it is given more flags, or an empty registry if
it has none; it joins a registry to which it does not lead and where its keyword is free, or leaves
one; or it is destroyed, and the registry that it owns is emptied. -/
inductive Change (s : Store) : Store → Prop
  | create (face : Face) : Change s (s.addCommand { toFace := face }).2
  | borrow {face : Face} {r : RegistryId} (hr : s.HasRegistry r)
    (hface : face.attributes.isAlias = true) :
    Change s (s.addCommand { toFace := face, children := some (.borrowed r) }).2
  | found (face : Face) {items : List CommandId} (hitems : ∀ c ∈ items, s.HasCommand c)
    (hnamed : ∀ c ∈ items, s.keyword c ≠ "") (hdistinct : (items.map s.keyword).Nodup) :
    Change s (s.found face items)
  | mark (c : CommandId) (flags : Int) : Change s (s.addAttributes c flags)
  | furnish {c : CommandId} (hc : s.HasCommand c) (hnone : s.registryOf c = none) :
    Change s (s.furnish c)
  | enlist {r : RegistryId} {c : CommandId} (hr : (s.registry r).destroyed = false)
    (hc : (s.command c).destroyed = false) (hnamed : s.keyword c ≠ "")
    (hfree : ∀ d ∈ s.itemsOf r, s.keyword d ≠ s.keyword c) (hleads : ¬ s.Leads c r) :
    Change s (s.enlist r c)
  | strike (r : RegistryId) (position : Nat) : Change s (s.strike r position)
  | bury {c : CommandId} (hc : (s.command c).destroyed = false) : Change s (s.bury c)

/-! ## Nothing is ever taken out of the store -/

theorem length_commands_bury (s : Store) (c : CommandId) :
    (s.bury c).commands.length = s.commands.length := by
  unfold bury
  split <;> [split; skip] <;> simp [setCommand, closeRegistry, setRegistry]

theorem length_registries_bury (s : Store) (c : CommandId) :
    (s.bury c).registries.length = s.registries.length := by
  unfold bury
  split <;> [split; skip] <;> simp [setCommand, closeRegistry, setRegistry]

theorem Change.length_commands_le {s t : Store} (h : Change s t) :
    s.commands.length ≤ t.commands.length := by
  cases h with
  | bury hc => exact Nat.le_of_eq (length_commands_bury s _).symm
  | _ => simp [addCommand, Store.found, Store.furnish, addRegistry, addAttributes, setCommand,
      Store.enlist, Store.strike, setRegistry]

theorem Change.length_registries_le {s t : Store} (h : Change s t) :
    s.registries.length ≤ t.registries.length := by
  cases h with
  | bury hc => exact Nat.le_of_eq (length_registries_bury s _).symm
  | _ => simp [addCommand, Store.found, Store.furnish, addRegistry, addAttributes, setCommand,
      Store.enlist, Store.strike, setRegistry]

theorem Change.hasCommand {s t : Store} (h : Change s t) {c : CommandId} (hc : s.HasCommand c) :
    t.HasCommand c :=
  Nat.lt_of_lt_of_le hc h.length_commands_le

theorem Change.hasRegistry {s t : Store} (h : Change s t) {r : RegistryId}
    (hr : s.HasRegistry r) : t.HasRegistry r :=
  Nat.lt_of_lt_of_le hr h.length_registries_le

theorem ne_nextCommand {s : Store} {c : CommandId} (hc : s.HasCommand c) : c ≠ s.nextCommand := by
  rintro rfl
  exact s.not_hasCommand_nextCommand hc

/-- A command keeps its keyword for good. -/
theorem Change.keyword {s t : Store} (h : Change s t) {c : CommandId} (hc : s.HasCommand c) :
    t.keyword c = s.keyword c := by
  have hne := ne_nextCommand hc
  cases h with
  | create face => simp [keyword_addCommand, hne]
  | borrow hr hface => simp [keyword_addCommand, hne]
  | found face hitems hnamed hdistinct => simp [keyword_found, hne]
  | mark d flags => simp
  | furnish hd hnone => simp
  | enlist hr hd hnamed hfree hleads => simp
  | strike r position => simp
  | bury hd => simp

/-! ## Changes that only take away -/

/-- Commands leave registries and references are given up, but nothing is added. -/
structure Shrinks (s t : Store) : Prop where
  keyword : ∀ c, t.keyword c = s.keyword c
  registryOf : ∀ {c r}, t.registryOf c = some r → s.registryOf c = some r
  itemsOf : ∀ r, (t.itemsOf r).Sublist (s.itemsOf r)

theorem Shrinks.refl (s : Store) : Shrinks s s :=
  ⟨fun _ => rfl, id, fun _ => List.Sublist.refl _⟩

theorem Shrinks.trans {s t u : Store} (hst : Shrinks s t) (htu : Shrinks t u) : Shrinks s u where
  keyword c := (htu.keyword c).trans (hst.keyword c)
  registryOf h := hst.registryOf (htu.registryOf h)
  itemsOf r := (htu.itemsOf r).trans (hst.itemsOf r)

theorem shrinks_strike (s : Store) (r : RegistryId) (position : Nat) :
    Shrinks s (s.strike r position) := by
  refine ⟨fun _ => rfl, id, fun q => ?_⟩
  rw [itemsOf_strike]
  split_ifs with hq
  · exact hq ▸ List.eraseIdx_sublist _ _
  · exact List.Sublist.refl _

theorem shrinks_bury (s : Store) (c : CommandId) : Shrinks s (s.bury c) := by
  refine ⟨s.keyword_bury c, fun {d r} hr => ?_, fun q => ?_⟩
  · rw [registryOf_bury] at hr
    split_ifs at hr with hd
    exact hr
  · rw [itemsOf_bury]
    split_ifs with hq
    · exact List.nil_sublist _
    · exact List.Sublist.refl _

/-! ## A sound store stays sound -/

theorem Change.refs {s t : Store} (h : Change s t) (hs : s.Sound) {c : CommandId} {r : RegistryId}
    (hr : t.registryOf c = some r) : t.HasRegistry r := by
  -- Either the reference was there before, or the registry is the one that was just made.
  have hold : s.registryOf c = some r → t.HasRegistry r := fun h' => h.hasRegistry (hs.refs h')
  have hnew (q : RegistryId) (hq : s.HasRegistry q) (hrq : q = r) : t.HasRegistry r :=
    hrq ▸ h.hasRegistry hq
  cases h with
  | create face =>
    rw [registryOf_addCommand] at hr
    split_ifs at hr with hc
    · simp at hr
    · exact hold hr
  | borrow hq hface =>
    rw [registryOf_addCommand] at hr
    split_ifs at hr with hc
    · exact hnew _ hq (by simpa [Children.registry] using hr)
    · exact hold hr
  | found face hitems hnamed hdistinct =>
    rw [registryOf_found] at hr
    split_ifs at hr with hc
    · cases hr
      simp [HasRegistry, Store.found, addRegistry, addCommand, nextRegistry]
    · exact hold hr
  | mark d flags => exact hold (by simpa using hr)
  | furnish hd hnone =>
    rw [registryOf_furnish _ hd] at hr
    split_ifs at hr with hc
    · cases hr
      simp [HasRegistry, Store.furnish, addRegistry, setCommand, nextRegistry]
    · exact hold hr
  | enlist hq hd hnamed hfree hleads => exact hold (by simpa using hr)
  | strike q position => exact hold ((shrinks_strike s q position).registryOf hr)
  | @bury d hd => exact hold ((shrinks_bury s d).registryOf hr)

/-- The commands of a registry after a change are those before it, as far as they were
kept; a new one is the one that was registered, or belongs to a group that was made. -/
theorem Change.itemsOf {s t : Store} (h : Change s t) (r : RegistryId) :
    (t.itemsOf r).Sublist (s.itemsOf r) ∨
      ((∀ c ∈ t.itemsOf r, s.HasCommand c ∧ s.keyword c ≠ "") ∧
        ((t.itemsOf r).map s.keyword).Nodup) ∨
      ∃ c, t.itemsOf r = s.itemsOf r ++ [c] ∧ s.HasCommand c ∧ s.keyword c ≠ "" ∧
        ∀ d ∈ s.itemsOf r, s.keyword d ≠ s.keyword c := by
  cases h with
  | create face => exact .inl (List.Sublist.refl _)
  | borrow hq hface => exact .inl (List.Sublist.refl _)
  | found face hitems hnamed hdistinct =>
    rw [itemsOf_found]
    split_ifs with hr
    · exact .inr (.inl ⟨fun c hc => ⟨hitems c hc, hnamed c hc⟩, hdistinct⟩)
    · exact .inl (List.Sublist.refl _)
  | mark d flags => exact .inl (List.Sublist.refl _)
  | furnish hd hnone => exact .inl (by simp)
  | @enlist q c hq hc hnamed hfree hleads =>
    rw [itemsOf_enlist _ (s.hasRegistry_of_live hq)]
    split_ifs with hr
    · exact .inr (.inr ⟨c, by rw [hr], s.index_lt_of_live hc, hnamed, hr ▸ hfree⟩)
    · exact .inl (List.Sublist.refl _)
  | strike q position => exact .inl ((shrinks_strike s q position).itemsOf r)
  | @bury d hd => exact .inl ((shrinks_bury s d).itemsOf r)

theorem Change.aliased {s t : Store} (h : Change s t) (hs : s.Sound) {c : CommandId}
    {r : RegistryId} (hr : (t.command c).children = some (.borrowed r)) :
    (t.command c).attributes.isAlias = true := by
  cases h with
  | create face =>
    rw [command_addCommand] at hr ⊢
    split_ifs at hr ⊢ with hc
    exact hs.aliased hr
  | borrow hq hface =>
    rw [command_addCommand] at hr ⊢
    split_ifs at hr ⊢ with hc
    · exact hface
    · exact hs.aliased hr
  | found face hitems hnamed hdistinct =>
    rw [Store.found, command_addCommand] at hr ⊢
    split_ifs at hr ⊢ with hc
    · simp at hr
    · exact hs.aliased hr
  | mark d flags =>
    rw [addAttributes, command_setCommand] at hr ⊢
    split_ifs at hr ⊢ with hc
    · have := hs.aliased hr
      simp_all [Attributes.isAlias, Attributes.has, Attributes.add, Attributes.union]
    · exact hs.aliased hr
  | furnish hd hnone =>
    rw [Store.furnish, command_setCommand] at hr ⊢
    split_ifs at hr ⊢ with hc
    · simp at hr
    · exact hs.aliased hr
  | enlist hq hd hnamed hfree hleads => exact hs.aliased hr
  | strike q position => exact hs.aliased hr
  | bury hd =>
    rw [command_bury] at hr ⊢
    split_ifs at hr ⊢ with hc
    · simp [Command.destroy] at hr
    · exact hs.aliased hr

theorem sound_empty : Sound {} where
  refs := by simp [registryOf, command, Command.missing]
  items := by simp [itemsOf, registry, Registry.missing]
  named := by simp [itemsOf, registry, Registry.missing]
  distinct := by simp [itemsOf, registry, Registry.missing]
  aliased := by simp [command, Command.missing]

/-- **A sound store stays sound.** -/
theorem Sound.of_change {s t : Store} (hs : s.Sound) (h : Change s t) : t.Sound := by
  have hitems : ∀ {r c}, c ∈ t.itemsOf r → s.HasCommand c ∧ s.keyword c ≠ "" := by
    intro r c hc
    obtain hsub | ⟨hnew, -⟩ | ⟨d, hd, hhas, hnamed, -⟩ := h.itemsOf r
    · exact ⟨hs.items (hsub.subset hc), hs.named (hsub.subset hc)⟩
    · exact hnew c hc
    · rw [hd, List.mem_append, List.mem_singleton] at hc
      obtain hc | rfl := hc
      · exact ⟨hs.items hc, hs.named hc⟩
      · exact ⟨hhas, hnamed⟩
  have hdistinct : ∀ r, ((t.itemsOf r).map s.keyword).Nodup := by
    intro r
    obtain hsub | ⟨-, hnew⟩ | ⟨d, hd, -, -, hfree⟩ := h.itemsOf r
    · exact (hs.distinct r).sublist (hsub.map _)
    · exact hnew
    · rw [hd, List.map_append, List.map_singleton]
      refine List.Nodup.append (hs.distinct r) (List.nodup_singleton _) ?_
      simpa using hfree
  refine ⟨h.refs hs, fun hc => h.hasCommand (hitems hc).1, ?_, ?_, h.aliased hs⟩
  · intro r c hc
    rw [h.keyword (hitems hc).1]
    exact (hitems hc).2
  · intro r
    rw [List.map_congr_left fun c hc => h.keyword (hitems hc).1]
    exact hdistinct r

end CommandShell.Store
