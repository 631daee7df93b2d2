import CommandShell.Proofs.Store.Acyclic
import CommandShell.Proofs.Store.Demolition
import CommandShell.Proofs.Store.Extension

/-!
# A copy is like the original and has nothing to do with it

A copy shows what the original shows, command by command, and has a registry wherever the
original has one.  Registries that the original owns are copied along with what they hold; one
that it borrows is borrowed by the copy too, and is the same.  What the copy owns is new all the
way down, so whatever happens to it later, such as its destruction, does not concern what was
there before.
-/

namespace CommandShell.Store

open Relation

variable {s t u : Store} {c d : CommandId} {k : Cutting}

/-- The commands show the same and own or borrow in the same way: neither has a registry; or
both borrow the same one; or each owns one, and these hold commands that resemble each other, in
the same order. -/
inductive Resembles (s t : Store) : CommandId → CommandId → Prop
  | bare {c d : CommandId} (hface : (t.command d).toFace = (s.command c).toFace)
    (hc : (s.command c).children = none) (hd : (t.command d).children = none) : Resembles s t c d
  | borrowing {c d : CommandId} {r : RegistryId}
    (hface : (t.command d).toFace = (s.command c).toFace)
    (hc : (s.command c).children = some (.borrowed r))
    (hd : (t.command d).children = some (.borrowed r)) : Resembles s t c d
  | owning {c d : CommandId} {q r : RegistryId}
    (hface : (t.command d).toFace = (s.command c).toFace) (hc : s.Owns c q) (hd : t.Owns d r)
    (hitems : List.Forall₂ (Resembles s t) (s.itemsOf q) (t.itemsOf r)) : Resembles s t c d

/-- `d` stands in the registry that `c` owns. -/
def Contains (s : Store) (c d : CommandId) : Prop := ∃ r, s.Owns c r ∧ d ∈ s.itemsOf r

theorem Drags.contains (h : s.Drags c d) : s.Contains c d := by
  obtain ⟨-, r, hown, -, hmem⟩ := h
  exact ⟨r, hown, hmem⟩

/-! ## What is new -/

/-- The command was made since. -/
def IsNew (s t : Store) (c : CommandId) : Prop := t.HasCommand c ∧ ¬ s.HasCommand c

/-- The registry was made since. -/
def IsNewRegistry (s t : Store) (r : RegistryId) : Prop := t.HasRegistry r ∧ ¬ s.HasRegistry r

mutual

/-- The command was made since, to the pattern of a cutting, and so was everything it owns. -/
def Grown (s t : Store) (c : CommandId) : Cutting → Prop
  | .bare face => IsNew s t c ∧ t.command c = { toFace := face }
  | .borrowing face r =>
    IsNew s t c ∧ t.command c = { toFace := face, children := some (.borrowed r) }
  | .owning face items =>
    IsNew s t c ∧ ∃ r, IsNewRegistry s t r ∧
      t.command c = { toFace := face, children := some (.owned r) } ∧
      GrownAll s t (t.itemsOf r) items

/-- The commands were made to the pattern of cuttings, one each and in order. -/
def GrownAll (s t : Store) : List CommandId → List Cutting → Prop
  | [], [] => True
  | c :: cs, k :: ks => Grown s t c k ∧ GrownAll s t cs ks
  | _, _ => False

end

/-- What was there is as it was. -/
structure Spares (s t : Store) : Prop where
  hasCommand : ∀ {c}, s.HasCommand c → t.HasCommand c
  hasRegistry : ∀ {r}, s.HasRegistry r → t.HasRegistry r
  command : ∀ {c}, s.HasCommand c → t.command c = s.command c
  registry : ∀ {r}, s.HasRegistry r → t.registry r = s.registry r

theorem Extends.spares (h : s.Extends t) : s.Spares t :=
  ⟨h.hasCommand, h.hasRegistry, h.command, h.registry⟩

theorem spares_found (s : Store) (face : Face) (items : List CommandId) :
    s.Spares (s.found face items) where
  hasCommand hc := (hasCommand_addCommand_iff _ _).2 (.inl hc)
  hasRegistry hr := (hasRegistry_addRegistry_iff _ _).2 (.inl hr)
  command hc := by
    rw [found, command_addCommand]
    exact if_neg (ne_nextCommand hc)
  registry {r} hr := by
    have hne : r ≠ s.nextRegistry := by
      rintro rfl
      exact s.not_hasRegistry_nextRegistry hr
    rw [found, registry_addCommand, registry_addRegistry, if_neg hne]

mutual

/-- What has grown stays as it is when what is there is spared. -/
theorem Grown.of_spares (htu : t.Spares u) :
    ∀ {k : Cutting} {c : CommandId}, s.Grown t c k → s.Grown u c k
  | .bare face, c, h => by
    obtain ⟨⟨hmade, hnew⟩, hcommand⟩ := h
    exact ⟨⟨htu.hasCommand hmade, hnew⟩, (htu.command hmade).trans hcommand⟩
  | .borrowing face r, c, h => by
    obtain ⟨⟨hmade, hnew⟩, hcommand⟩ := h
    exact ⟨⟨htu.hasCommand hmade, hnew⟩, (htu.command hmade).trans hcommand⟩
  | .owning face items, c, h => by
    obtain ⟨⟨hmade, hnew⟩, r, ⟨hmade', hnew'⟩, hcommand, hitems⟩ := h
    refine ⟨⟨htu.hasCommand hmade, hnew⟩, r, ⟨htu.hasRegistry hmade', hnew'⟩,
      (htu.command hmade).trans hcommand, ?_⟩
    rw [itemsOf, htu.registry hmade']
    exact GrownAll.of_spares htu hitems

theorem GrownAll.of_spares (htu : t.Spares u) :
    ∀ {ks : List Cutting} {cs : List CommandId}, s.GrownAll t cs ks → s.GrownAll u cs ks
  | [], [], _ => trivial
  | _ :: _, _ :: _, ⟨hfirst, hrest⟩ => ⟨hfirst.of_spares htu, GrownAll.of_spares htu hrest⟩

end

mutual

/-- A cutting that is planted grows. -/
theorem grown_plant (s : Store) : ∀ (k : Cutting) {t : Store}, s.Extends t →
    s.Grown (t.plant k).2 (t.plant k).1 k
  | .bare face, t, hst =>
    ⟨⟨(hasCommand_addCommand_iff _ _).2 (.inr rfl),
      fun hold => t.not_hasCommand_nextCommand (hst.hasCommand hold)⟩,
      (command_addCommand t _ _).trans (if_pos rfl)⟩
  | .borrowing face r, t, hst =>
    ⟨⟨(hasCommand_addCommand_iff _ _).2 (.inr rfl),
      fun hold => t.not_hasCommand_nextCommand (hst.hasCommand hold)⟩,
      (command_addCommand t _ _).trans (if_pos rfl)⟩
  | .owning face items, t, hst => by
    have hitems := grownAll_plantAll s items hst
    have hsu := hst.trans (extends_plantAll t items).1
    change s.Grown ((t.plantAll items).2.found face (t.plantAll items).1)
      (t.plantAll items).2.nextCommand (.owning face items)
    generalize t.plantAll items = planted at hitems hsu
    obtain ⟨ids, u⟩ := planted
    refine ⟨⟨(hasCommand_addCommand_iff _ _).2 (.inr rfl), fun hold => ?_⟩, u.nextRegistry,
      ⟨(hasRegistry_addRegistry_iff _ _).2 (.inr rfl), fun hold => ?_⟩,
      (command_addCommand _ _ _).trans (if_pos rfl), ?_⟩
    · exact u.not_hasCommand_nextCommand (hsu.hasCommand hold)
    · exact u.not_hasRegistry_nextRegistry (hsu.hasRegistry hold)
    · rw [itemsOf_found, if_pos rfl]
      exact hitems.of_spares (u.spares_found face ids)

/-- Cuttings that are planted one after another grow. -/
theorem grownAll_plantAll (s : Store) : ∀ (ks : List Cutting) {t : Store}, s.Extends t →
    s.GrownAll (t.plantAll ks).2 (t.plantAll ks).1 ks
  | [], _, _ => trivial
  | k :: ks, t, hst => by
    have hfirst := extends_plant t k
    have hrest := extends_plantAll (t.plant k).2 ks
    exact ⟨(grown_plant s k hst).of_spares hrest.1.spares,
      grownAll_plantAll s ks (hst.trans hfirst.1)⟩

end

theorem grown_copy (s : Store) (c : CommandId) :
    s.Grown (s.copy c).2 (s.copy c).1 (s.cutting c) :=
  grown_plant s (s.cutting c) (Extends.refl s)

/-! ## Everything that a copy owns is new -/

theorem Grown.isNew (h : s.Grown t c k) : s.IsNew t c := by
  cases k with
  | bare face => exact h.1
  | borrowing face r => exact h.1
  | owning face items => exact h.1

theorem GrownAll.exists_of_mem {cs : List CommandId} {ks : List Cutting}
    (h : s.GrownAll t cs ks) (hc : c ∈ cs) : ∃ k, s.Grown t c k := by
  induction cs generalizing ks with
  | nil => cases hc
  | cons d cs ih =>
    cases ks with
    | nil => exact h.elim
    | cons k ks =>
      obtain rfl | hc := List.mem_cons.1 hc
      · exact ⟨k, h.1⟩
      · exact ih h.2 hc

/-- What has grown owns a new registry, if any, and what stands there has grown too. -/
theorem Grown.of_owns {r : RegistryId} (h : s.Grown t c k) (hown : t.Owns c r) :
    s.IsNewRegistry t r ∧ ∀ d ∈ t.itemsOf r, ∃ k, s.Grown t d k := by
  rw [Owns] at hown
  cases k with
  | bare face =>
    rw [h.2] at hown
    cases hown
  | borrowing face q =>
    rw [h.2] at hown
    cases hown
  | owning face items =>
    obtain ⟨-, q, hq, hcommand, hitems⟩ := h
    rw [hcommand] at hown
    cases hown
    exact ⟨hq, fun d hd => hitems.exists_of_mem hd⟩

/-- Going down through owned registries from what has grown leads to new commands and
registries only. -/
theorem Grown.isNew_of_contains (h : s.Grown t c k) (hcd : ReflTransGen t.Contains c d) :
    s.IsNew t d ∧ ∀ r, t.Owns d r → s.IsNewRegistry t r := by
  have hgrown : ∃ k, s.Grown t d k := by
    induction hcd with
    | refl => exact ⟨k, h⟩
    | tail _ hcontains ih =>
      obtain ⟨k', hk'⟩ := ih
      obtain ⟨r, hown, hmem⟩ := hcontains
      exact (hk'.of_owns hown).2 _ hmem
  obtain ⟨k', hk'⟩ := hgrown
  exact ⟨hk'.isNew, fun r hown => (hk'.of_owns hown).1⟩

/-! ## A copy is like the original -/

theorem forall₂_of_grownAll {cs ds : List CommandId}
    (hcs : ∀ c ∈ cs, ∀ d, s.Grown t d (s.cutting c) → s.Resembles t c d)
    (h : s.GrownAll t ds (cs.map s.cutting)) : List.Forall₂ (s.Resembles t) cs ds := by
  induction cs generalizing ds with
  | nil =>
    cases ds with
    | nil => exact .nil
    | cons d ds => exact h.elim
  | cons c cs ih =>
    cases ds with
    | nil => exact h.elim
    | cons d ds =>
      refine .cons (hcs c List.mem_cons_self d h.1) (ih (fun e he => ?_) h.2)
      exact hcs e (List.mem_cons_of_mem c he)

/-- What has grown from the cutting of a command resembles this command.  The induction is on
what stands below it. -/
theorem Grounded.resembles (h : s.Grounded c) (hd : s.Grown t d (s.cutting c)) :
    s.Resembles t c d := by
  induction h generalizing d with
  | intro c hc ih =>
    have hground : s.Grounded c := Acc.intro c hc
    rw [hground.cutting_eq] at hd
    cases hchildren : (s.command c).children with
    | none =>
      rw [hchildren] at hd
      obtain ⟨-, hcommand⟩ := hd
      exact .bare (by rw [hcommand]) hchildren (by rw [hcommand])
    | some children =>
      rw [hchildren] at hd
      cases children with
      | borrowed r =>
        obtain ⟨-, hcommand⟩ := hd
        exact .borrowing (by rw [hcommand]) hchildren (by rw [hcommand])
      | owned q =>
        obtain ⟨-, r, -, hcommand, hitems⟩ := hd
        refine .owning (by rw [hcommand]) hchildren (by rw [Owns, hcommand])
          (forall₂_of_grownAll (fun e he d hd => ih e ?_ hd) hitems)
        exact parent_iff.2 ⟨q, s.registryOf_of_children hchildren, he⟩

/-- What was there looks as it did, all the way down. -/
theorem Spares.outline_eq (hst : s.Spares t) (hs : s.Sound) (ht : t.Acyclic)
    (h : s.Grounded c) (hc : s.HasCommand c) : t.outline c = s.outline c := by
  induction h with
  | intro c hbelow ih =>
    have hground : s.Grounded c := Acc.intro c hbelow
    have hregistry : t.registryOf c = s.registryOf c := by
      rw [registryOf, hst.command hc, registryOf]
    rw [(ht.grounded c).outline_eq, hground.outline_eq, hst.command hc, hregistry]
    cases hr : s.registryOf c with
    | none => simp [subcommands, hregistry, hr]
    | some r =>
      have hitems : t.itemsOf r = s.itemsOf r := by rw [itemsOf, hst.registry (hs.refs hr), itemsOf]
      rw [subcommands_of_registryOf _ hr, subcommands_of_registryOf _ (hregistry.trans hr), hitems,
        List.map_congr_left]
      intro e he
      exact ih e (parent_iff.2 ⟨r, hr, he⟩) (hs.items he)

theorem map_eq_of_forall₂ {α β γ : Type} {R : α → β → Prop} (f : β → γ) (g : α → γ) {as : List α}
    {bs : List β} (h : List.Forall₂ R as bs) (hfg : ∀ a ∈ as, ∀ b, R a b → f b = g a) :
    bs.map f = as.map g := by
  induction h with
  | nil => rfl
  | cons hfirst _ ih =>
    rw [List.map_cons, List.map_cons, hfg _ List.mem_cons_self _ hfirst,
      ih fun a ha => hfg a (List.mem_cons_of_mem _ ha)]

/-- A command that resembles another one looks like it, all the way down, if what the two
borrow is spared. -/
theorem Resembles.outline_eq (hst : s.Spares t) (hs : s.Sound) (ht : t.Acyclic)
    (hc : s.Grounded c) (h : s.Resembles t c d) : t.outline d = s.outline c := by
  induction hc generalizing d with
  | intro c hbelow ih =>
    have hground : s.Grounded c := Acc.intro c hbelow
    rw [(ht.grounded d).outline_eq, hground.outline_eq]
    cases h with
    | bare hface hc hd => simp [hface, registryOf, subcommands, hc, hd]
    | @borrowing _ _ r hface hc hd =>
      have hr : s.registryOf c = some r := s.registryOf_of_children hc
      have hr' : t.registryOf d = some r := t.registryOf_of_children hd
      have hitems : t.itemsOf r = s.itemsOf r := by rw [itemsOf, hst.registry (hs.refs hr), itemsOf]
      have hsame : ∀ e ∈ s.itemsOf r, t.outline e = s.outline e := fun e he =>
        hst.outline_eq hs ht (hground.of_parent (parent_iff.2 ⟨r, hr, he⟩)) (hs.items he)
      rw [hface, hr, hr', subcommands_of_registryOf _ hr, subcommands_of_registryOf _ hr', hitems,
        List.map_congr_left hsame]
    | @owning _ _ q r hface hc hd hitems =>
      have hmap := map_eq_of_forall₂ t.outline s.outline hitems fun e he _ =>
        ih e (parent_iff.2 ⟨q, hc.registryOf, he⟩)
      rw [hface, hc.registryOf, hd.registryOf, subcommands_of_registryOf _ hc.registryOf,
        subcommands_of_registryOf _ hd.registryOf, hmap, Option.isSome_some, Option.isSome_some]

/-! ## Destroying a copy -/

/-- Destroying what has grown since leaves what was there before as it was. -/
theorem Grown.spares_destroy (hst : s.Spares t) (h : s.Grown t c k) :
    s.Spares (t.destroy c).value := by
  have hdown := demolished_destroy t c
  have hnew : ∀ {d}, t.Falls c d → s.IsNew t d ∧ ∀ r, t.Owns d r → s.IsNewRegistry t r :=
    fun hd => h.isNew_of_contains (ReflTransGen.mono (fun _ _ => Drags.contains) _ _ hd.2)
  refine ⟨fun hd => (hdown.hasCommand _).2 (hst.hasCommand hd),
    fun hr => (hdown.hasRegistry _).2 (hst.hasRegistry hr), fun {d} hd => ?_, fun {r} hr => ?_⟩
  · rw [hdown.standing d fun hfalls => (hnew hfalls).1.2 hd]
    exact hst.command hd
  · rw [hdown.kept r fun d hfalls hown => absurd hr ((hnew hfalls).2 r hown).2]
    exact hst.registry hr

/-! ## Every copy -/

/-- **A copy is like the original and has nothing to do with it.**  Copying changes no command
and no registry that was there.  The copy shows what the original shows, owns and borrows where
the original does, and borrows the same registries; so the two look the same all the way down.
Everything that can be reached from the copy through owned registries is new, and destroying the
copy leaves all that was there before the copy as it was. -/
theorem copy_resembles (h : s.Reachable) {n : CommandId} (hn : s.HasCommand n)
    (hcopy : s.copy n = (d, t)) :
    s.Spares t ∧ s.Resembles t n d ∧ t.outline d = s.outline n ∧
    (∀ e, ReflTransGen t.Contains d e →
      s.IsNew t e ∧ ∀ r, t.Owns e r → s.IsNewRegistry t r) ∧
    s.Spares (t.destroy d).value := by
  have hgrown : s.Grown t d (s.cutting n) := by simpa [hcopy] using s.grown_copy n
  have hspares : s.Spares t := by simpa [hcopy] using (s.extends_copy n).spares
  have hreachable : t.Reachable := by
    have hperform := h.perform (.copy n) (by simpa [Operation.operands] using hn)
    simpa [Operation.perform, hcopy] using hperform
  have hground := h.acyclic.grounded n
  have hresembles := hground.resembles hgrown
  exact ⟨hspares, hresembles, hresembles.outline_eq hspares h.sound hreachable.acyclic hground,
    fun e he => hgrown.isNew_of_contains he, hgrown.spares_destroy hspares⟩

/-- A group `g` that holds an alias of `a`, which has a sub-command `b`. -/
def lent : Store :=
  [Operation.create { keyword := "g" }, .create { keyword := "a" }, .create { keyword := "b" },
    .makeAlias ⟨1⟩ "c", .register ⟨1⟩ ⟨2⟩, .register ⟨0⟩ ⟨3⟩].foldl Operation.perform {}

theorem reachable_lent :
    lent.Reachable ∧ ∀ c ∈ ([⟨0⟩, ⟨2⟩] : List CommandId), lent.HasCommand c := by
  have hempty : Reachable {} := ReflTransGen.refl
  have hg := hempty.perform (.create { keyword := "g" }) (by decide)
  have ha := hg.perform (.create { keyword := "a" }) (by decide)
  have hb := ha.perform (.create { keyword := "b" }) (by decide)
  have hc := hb.perform (.makeAlias ⟨1⟩ "c") (by decide)
  have hab := hc.perform (.register ⟨1⟩ ⟨2⟩) (by decide)
  have hhas : ∀ c ∈ ([⟨0⟩, ⟨2⟩, ⟨3⟩] : List CommandId), HasCommand _ c := fun c hmem =>
    hc.hasCommand_perform (.register ⟨1⟩ ⟨2⟩) (by decide)
      ((by decide : ∀ c ∈ ([⟨0⟩, ⟨2⟩, ⟨3⟩] : List CommandId), HasCommand _ c) c hmem)
  have hoperands : ∀ c ∈ (Operation.register ⟨0⟩ ⟨3⟩).operands, HasCommand _ c := fun c hmem =>
    hhas c ((by decide : ([⟨0⟩, ⟨3⟩] : List CommandId) ⊆ [⟨0⟩, ⟨2⟩, ⟨3⟩]) hmem)
  refine ⟨hab.perform (.register ⟨0⟩ ⟨3⟩) hoperands, fun c hmem => ?_⟩
  exact hab.hasCommand_perform (.register ⟨0⟩ ⟨3⟩) hoperands
    (hhas c ((by decide : ([⟨0⟩, ⟨2⟩] : List CommandId) ⊆ [⟨0⟩, ⟨2⟩, ⟨3⟩]) hmem))

/-- A copy of the group looks like the group, and when it is destroyed, the command that its
alias leads to is still there. -/
theorem lent_resembles :
    lent.Reachable ∧ lent.HasCommand ⟨0⟩ ∧
    (lent.copy ⟨0⟩).2.outline (lent.copy ⟨0⟩).1 = lent.outline ⟨0⟩ ∧
    ((lent.copy ⟨0⟩).2.destroy (lent.copy ⟨0⟩).1).value.command ⟨2⟩ = lent.command ⟨2⟩ := by
  obtain ⟨hreachable, hhas⟩ := reachable_lent
  have hgroup := hhas ⟨0⟩ (by decide)
  obtain ⟨-, -, houtline, -, hspares⟩ := copy_resembles hreachable hgroup rfl
  exact ⟨hreachable, hgroup, houtline, hspares.command (hhas ⟨2⟩ (by decide))⟩

end CommandShell.Store
