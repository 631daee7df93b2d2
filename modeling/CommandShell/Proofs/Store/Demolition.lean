import CommandShell.Proofs.Store.Ownership

/-!
# What goes down with a command

Destroying a command destroys what it owns, what that owns, and so on.  Commands may be shared
between registries and registries may be cyclic, so a command can be met again on the way; by
then it is marked, and is passed over.  What goes down in the end is exactly what can be reached
through owned registries that are still open, by way of commands that are not destroyed yet.
Nothing else changes, and borrowed registries are never entered.

The walk keeps a list of the commands that are still to be destroyed.  Destroying the first of
them puts the commands of its registry in front.  Its recursive form, where a registry is
emptied before the walk goes on, comes to the same end.
-/

namespace CommandShell.Store

open Relation

variable {s t u : Store} {c d : CommandId} {rest : List CommandId}

/-- A command that is not destroyed takes along what stands in the open registry it owns. -/
def Drags (s : Store) (c d : CommandId) : Prop :=
  (s.command c).destroyed = false ∧ ∃ r, s.Owns c r ∧ ¬ s.Closed r ∧ d ∈ s.itemsOf r

/-- `d` is not destroyed yet and goes down with `c`. -/
def Falls (s : Store) (c d : CommandId) : Prop :=
  (s.command d).destroyed = false ∧ ReflTransGen s.Drags c d

/-! ## One command -/

/-- The commands that are to be destroyed next, once a command is. -/
def heirs (s : Store) (c : CommandId) : List CommandId :=
  match (s.command c).children with
  | some (.owned r) => if (s.registry r).destroyed then [] else s.itemsOf r
  | _ => []

theorem mem_heirs : d ∈ s.heirs c ↔ ∃ r, s.Owns c r ∧ ¬ s.Closed r ∧ d ∈ s.itemsOf r := by
  unfold heirs Owns Closed
  split
  · rename_i r hr
    by_cases hclosed : (s.registry r).destroyed = true <;> simp [hr, hclosed]
  · rename_i hnone
    constructor
    · intro hd
      cases hd
    · rintro ⟨r, hown, -⟩
      exact (hnone r hown).elim

theorem drags_iff : s.Drags c d ↔ (s.command c).destroyed = false ∧ d ∈ s.heirs c := by
  rw [Drags, mem_heirs]

theorem registry_bury_of_owns {r : RegistryId} (h : s.Owns c r) (hopen : ¬ s.Closed r) :
    (s.bury c).registry r = { items := [], destroyed := true } := by
  have hr : (s.setCommand c (s.command c).destroy).HasRegistry r :=
    s.hasRegistry_of_live (by simpa [Closed] using hopen)
  rw [Closed] at hopen
  rw [bury_of_owned h, if_neg hopen, closeRegistry, registry_setRegistry, if_pos ⟨rfl, hr⟩]

theorem registry_bury_of_not {r : RegistryId} (h : s.Owns c r → s.Closed r) :
    (s.bury c).registry r = s.registry r := by
  by_cases hown : ∃ q, s.Owns c q
  · obtain ⟨q, hq⟩ := hown
    rw [bury_of_owned hq]
    split_ifs with hclosed
    · rfl
    · have hne : r ≠ q := by
        rintro rfl
        exact hclosed (h hq)
      rw [closeRegistry, registry_setRegistry_of_ne _ hne, registry_setCommand]
  · rw [bury_of_not_owned fun q hq => hown ⟨q, hq⟩]
    rfl

/-! ## Exactly these are destroyed -/

/-- The commands with `P` are destroyed, and so are the registries they own that were open.
Everything else is as it was. -/
structure Demolished (s : Store) (P : CommandId → Prop) (t : Store) : Prop where
  hasCommand : ∀ d, t.HasCommand d ↔ s.HasCommand d
  hasRegistry : ∀ r, t.HasRegistry r ↔ s.HasRegistry r
  fallen : ∀ d, P d → t.command d = (s.command d).destroy
  standing : ∀ d, ¬ P d → t.command d = s.command d
  emptied : ∀ d r, P d → s.Owns d r → ¬ s.Closed r →
    t.registry r = { items := [], destroyed := true }
  kept : ∀ r, (∀ d, P d → s.Owns d r → s.Closed r) → t.registry r = s.registry r

namespace Demolished

variable {P Q : CommandId → Prop}

theorem refl (s : Store) : s.Demolished (fun _ => False) s where
  hasCommand _ := Iff.rfl
  hasRegistry _ := Iff.rfl
  fallen _ h := h.elim
  standing _ _ := rfl
  emptied _ _ h := h.elim
  kept _ _ := rfl

theorem congr (h : s.Demolished P t) (hPQ : ∀ d, Q d ↔ P d) : s.Demolished Q t := by
  have : Q = P := funext fun d => propext (hPQ d)
  rwa [this]

/-- Burying one command destroys this one. -/
theorem bury (hc : (s.command c).destroyed = false) :
    s.Demolished (fun d => d = c) (s.bury c) where
  hasCommand d := by simp [HasCommand, length_commands_bury]
  hasRegistry r := by simp [HasRegistry, length_registries_bury]
  fallen d hd := by simp [command_bury, hd, HasCommand, s.index_lt_of_live hc]
  standing d hd := by simp [command_bury, hd]
  emptied d r hd hown hopen := registry_bury_of_owns (hd ▸ hown) hopen
  kept r h := registry_bury_of_not (h c rfl)

/-- First some commands are destroyed, then others that were still standing. -/
theorem trans (h : s.Demolished P t) (h' : t.Demolished Q u)
    (hlive : ∀ d, Q d → (t.command d).destroyed = false) :
    s.Demolished (fun d => P d ∨ Q d) u := by
  have hdisjoint : ∀ d, P d → ¬ Q d := by
    intro d hP hQ
    have := hlive d hQ
    simp [h.fallen d hP, Command.destroy] at this
  have hsame : ∀ {d r}, Q d → (t.Owns d r ↔ s.Owns d r) := by
    intro d r hQ
    rw [Owns, h.standing d fun hP => hdisjoint d hP hQ, Owns]
  have hstays : ∀ {r}, t.Closed r → u.registry r = t.registry r :=
    fun hclosed => h'.kept _ fun _ _ _ => hclosed
  refine ⟨fun d => (h'.hasCommand d).trans (h.hasCommand d),
    fun r => (h'.hasRegistry r).trans (h.hasRegistry r), ?_, ?_, ?_, ?_⟩
  · rintro d (hP | hQ)
    · rw [h'.standing d (hdisjoint d hP), h.fallen d hP]
    · rw [h'.fallen d hQ, h.standing d fun hP => hdisjoint d hP hQ]
  · intro d hd
    rw [not_or] at hd
    rw [h'.standing d hd.2, h.standing d hd.1]
  · rintro d r (hP | hQ) hown hopen
    · have hempty := h.emptied d r hP hown hopen
      rw [hstays (by simp [Closed, hempty]), hempty]
    · -- Either the registry went with one of the first commands, or it goes now.
      by_cases hfirst : ∃ e, P e ∧ s.Owns e r
      · obtain ⟨e, hP, hown'⟩ := hfirst
        have hempty := h.emptied e r hP hown' hopen
        rw [hstays (by simp [Closed, hempty]), hempty]
      · have hkept := h.kept r fun e hP hown' => absurd ⟨e, hP, hown'⟩ hfirst
        refine h'.emptied d r hQ ((hsame hQ).2 hown) ?_
        rwa [Closed, hkept]
  · intro r hr
    have hkept := h.kept r fun d hP => hr d (.inl hP)
    rw [h'.kept r, hkept]
    intro d hQ hown
    rw [Closed, hkept]
    exact hr d (.inr hQ) ((hsame hQ).1 hown)

end Demolished

/-! ## The walk -/

/-- What holds of a walk with nothing to do, and passes from the rest of a walk to the whole,
holds of every walk. -/
theorem destroyAll_induction {P : Store → List CommandId → Store → Prop} (nil : ∀ s, P s [] s)
    (passed : ∀ {s c rest t}, (s.command c).destroyed = true → P s rest t → P s (c :: rest) t)
    (buried : ∀ {s c rest t}, (s.command c).destroyed = false →
      P (s.bury c) (s.heirs c ++ rest) t → P s (c :: rest) t)
    (s : Store) (pending : List CommandId) : P s pending (s.destroyAll pending).value := by
  fun_induction destroyAll s pending with
  | case1 s => exact nil s
  | case2 s c rest hdead ih => exact passed hdead (by simpa using ih)
  | case3 s c rest hlive r hr hclosed ih =>
    refine buried (by simpa using hlive) ?_
    rw [bury_of_owned hr, if_pos hclosed]
    simpa [heirs, hr, hclosed] using ih
  | case4 s c rest hlive r hr hopen ih =>
    refine buried (by simpa using hlive) ?_
    rw [bury_of_owned hr, if_neg hopen]
    simpa [heirs, hr, hopen] using ih
  | case5 s c rest hlive hr ih =>
    refine buried (by simpa using hlive) ?_
    rw [bury_of_not_owned hr]
    have hnone : s.heirs c = [] := List.eq_nil_iff_forall_not_mem.2 fun d hd => by
      obtain ⟨r, hown, -⟩ := mem_heirs.1 hd
      exact hr r hown
    simpa [hnone] using ih

/-- Once a command is buried, the others take along what they did, unless they shared its
registry. -/
theorem drags_bury_of_ne {e : CommandId} (h : s.Drags d e) (hd : d ≠ c) (he : e ∉ s.heirs c) :
    (s.bury c).Drags d e := by
  obtain ⟨hlive, r, hown, hopen, hmem⟩ := h
  have hnot : ¬ s.Owns c r := fun hc => he (mem_heirs.2 ⟨r, hc, hopen, hmem⟩)
  have hkept : (s.bury c).registry r = s.registry r := registry_bury_of_not fun hc => absurd hc hnot
  refine ⟨by simpa [command_bury, hd] using hlive, r, (owns_bury c d r).2 ⟨hd, hown⟩, ?_, ?_⟩
  · rwa [Closed, hkept]
  · rwa [itemsOf, hkept]

/-- Burying a command lets none take along more than before. -/
theorem Drags.of_bury {e : CommandId} (h : (s.bury c).Drags d e) : s.Drags d e := by
  obtain ⟨hlive, r, hown, hopen, hmem⟩ := h
  obtain ⟨hne, hown⟩ := (owns_bury c d r).1 hown
  refine ⟨by simpa [command_bury, hne] using hlive, r, hown, fun hclosed => ?_, ?_⟩
  · exact hopen ((closed_bury c r).2 (.inr hclosed))
  · exact ((shrinks_bury s c).itemsOf r).subset hmem

/-- A command that goes down with others, the first of which is destroyed already, goes down
with the rest. -/
theorem falls_cons_of_destroyed (hc : (s.command c).destroyed = true) :
    (∃ p ∈ c :: rest, s.Falls p d) ↔ ∃ p ∈ rest, s.Falls p d := by
  have hnot : ¬ s.Falls c d := by
    rintro ⟨hlive, hpath⟩
    obtain rfl | ⟨e, hdrags, -⟩ := ReflTransGen.cases_head hpath
    · rw [hc] at hlive
      cases hlive
    · rw [hdrags.1] at hc
      cases hc
  simp [hnot]

/-- **One step of the walk**: what goes down with the first command and the rest is this command,
and what goes down, once it is buried, with its heirs and the rest.  A path that returns to the
registry of the buried command is cut down to its part after that. -/
theorem falls_cons_of_live (hc : (s.command c).destroyed = false) :
    (∃ p ∈ c :: rest, s.Falls p d) ↔
      d = c ∨ ∃ p ∈ s.heirs c ++ rest, (s.bury c).Falls p d := by
  have hsame : d ≠ c → ((s.bury c).command d).destroyed = (s.command d).destroyed := by
    intro hd
    simp [command_bury, hd]
  constructor
  · rintro ⟨p, hp, hlive, hpath⟩
    by_cases hd : d = c
    · exact .inl hd
    have hcut : ∃ q, (q = p ∧ p ≠ c ∨ q ∈ s.heirs c) ∧ ReflTransGen (s.bury c).Drags q d := by
      clear hp
      induction hpath using ReflTransGen.head_induction_on with
      | refl => exact ⟨d, .inl ⟨rfl, hd⟩, .refl⟩
      | @head p q hpq _ ih =>
        obtain ⟨q', hq' | hq', hrest⟩ := ih
        · obtain ⟨rfl, -⟩ := hq'
          by_cases hheir : q' ∈ s.heirs c
          · exact ⟨q', .inr hheir, hrest⟩
          · have hpc : p ≠ c := by
              rintro rfl
              exact hheir (drags_iff.1 hpq).2
            exact ⟨p, .inl ⟨rfl, hpc⟩, hrest.head (drags_bury_of_ne hpq hpc hheir)⟩
        · exact ⟨q', .inr hq', hrest⟩
    obtain ⟨q, hq, hrest⟩ := hcut
    refine .inr ⟨q, ?_, (hsame hd).trans hlive, hrest⟩
    obtain ⟨rfl, hne⟩ | hq := hq
    · exact List.mem_append_right _ ((List.mem_cons.1 hp).resolve_left hne)
    · exact List.mem_append_left _ hq
  · rintro (rfl | ⟨p, hp, hlive, hpath⟩)
    · exact ⟨d, List.mem_cons_self, hc, .refl⟩
    · have hd : d ≠ c := by
        rintro rfl
        simp [command_bury, HasCommand, s.index_lt_of_live hc, Command.destroy] at hlive
      have hlive' : (s.command d).destroyed = false := (hsame hd).symm.trans hlive
      have hpath' : ReflTransGen s.Drags p d :=
        ReflTransGen.mono (fun _ _ => Drags.of_bury) _ _ hpath
      obtain hp | hp := List.mem_append.1 hp
      · exact ⟨c, List.mem_cons_self, hlive', hpath'.head (drags_iff.2 ⟨hc, hp⟩)⟩
      · exact ⟨p, List.mem_cons_of_mem c hp, hlive', hpath'⟩

/-- The walk destroys exactly what goes down with the commands on its list. -/
theorem demolished_destroyAll (s : Store) (pending : List CommandId) :
    s.Demolished (fun d => ∃ p ∈ pending, s.Falls p d) (s.destroyAll pending).value := by
  refine destroyAll_induction
    (P := fun s pending t => s.Demolished (fun d => ∃ p ∈ pending, s.Falls p d) t)
    ?_ ?_ ?_ s pending
  · intro s
    exact (Demolished.refl s).congr fun d => by simp
  · intro s c rest t hc ih
    exact ih.congr fun d => falls_cons_of_destroyed hc
  · intro s c rest t hc ih
    have hboth := (Demolished.bury hc).trans ih fun d hd => by
      obtain ⟨p, -, hlive, -⟩ := hd
      exact hlive
    exact hboth.congr fun d => falls_cons_of_live hc

/-! ## The recursion -/

/-- Commands are destroyed one after another.  One that is destroyed already is passed over.
Another one is buried; then the commands of the registry that it owned are destroyed, and then
the rest. -/
inductive Razes : Store → List CommandId → Store → Prop
  | nil (s : Store) : Razes s [] s
  | passed {s t : Store} {c : CommandId} {rest : List CommandId}
    (hc : (s.command c).destroyed = true) (hrest : Razes s rest t) : Razes s (c :: rest) t
  | buried {s t u : Store} {c : CommandId} {rest : List CommandId}
    (hc : (s.command c).destroyed = false) (hheirs : Razes (s.bury c) (s.heirs c) t)
    (hrest : Razes t rest u) : Razes s (c :: rest) u

theorem Razes.split {first second : List CommandId} (h : Razes s (first ++ second) u) :
    ∃ t, Razes s first t ∧ Razes t second u := by
  induction first generalizing s with
  | nil => exact ⟨s, .nil s, h⟩
  | cons c first ih =>
    cases h with
    | passed hc hrest =>
      obtain ⟨t, hfirst, hsecond⟩ := ih hrest
      exact ⟨t, .passed hc hfirst, hsecond⟩
    | buried hc hheirs hrest =>
      obtain ⟨t, hfirst, hsecond⟩ := ih hrest
      exact ⟨t, .buried hc hheirs hfirst, hsecond⟩

/-- The recursion comes to an end, on every store, where the walk does. -/
theorem razes_destroyAll (s : Store) (pending : List CommandId) :
    Razes s pending (s.destroyAll pending).value := by
  refine destroyAll_induction Razes.nil Razes.passed ?_ s pending
  intro s c rest t hc ih
  obtain ⟨t', hheirs, hrest⟩ := ih.split
  exact .buried hc hheirs hrest

/-! ## Destroying a command -/

theorem demolished_destroy (s : Store) (c : CommandId) :
    s.Demolished (s.Falls c) (s.destroy c).value :=
  (demolished_destroyAll s [c]).congr fun d => by simp

/-- **What destroying a command does**, on every store: cyclic ones, ones with shared commands
and repeated items, and ones whose registries have several owners.  The recursion comes to an
end.  The commands that it destroys are the one it starts from and those that can be reached
from it by going from a command that was not destroyed to what stands in the open registry that
it owns; the registries that it destroys are the open ones that these commands own, and they
are empty afterwards.  All others are as they were.  So destroying a command that owns no
registry, such as an alias, changes this command only, and destroying one that is destroyed
changes nothing. -/
theorem destroy_falls (s : Store) (c : CommandId) :
    Razes s [c] (s.destroy c).value ∧
    s.Demolished (s.Falls c) (s.destroy c).value ∧
    (∀ d, (s.command d).destroyed = false →
      (((s.destroy c).value.command d).destroyed = true ↔ ReflTransGen s.Drags c d)) ∧
    (∀ r, (s.registry r).destroyed = false →
      (((s.destroy c).value.registry r).destroyed = true ↔ ∃ d, s.Falls c d ∧ s.Owns d r)) ∧
    ((s.command c).destroyed = false → (∀ r, (s.command c).children ≠ some (.owned r)) →
      (s.destroy c).value = s.setCommand c (s.command c).destroy) ∧
    ((s.command c).destroyed = true → (s.destroy c).value = s) := by
  have hdown := demolished_destroy s c
  refine ⟨razes_destroyAll s [c], hdown, ?_, ?_, ?_, value_destroy_of_destroyed⟩
  · intro d hlive
    by_cases hfalls : s.Falls c d
    · simp [hdown.fallen d hfalls, Command.destroy, hfalls.2]
    · have hpath : ¬ ReflTransGen s.Drags c d := fun hpath => hfalls ⟨hlive, hpath⟩
      simp [hdown.standing d hfalls, hlive, hpath]
  · intro r hopen
    have hopen' : ¬ s.Closed r := by simp [Closed, hopen]
    by_cases howner : ∃ d, s.Falls c d ∧ s.Owns d r
    · obtain ⟨d, hfalls, hown⟩ := howner
      rw [hdown.emptied d r hfalls hown hopen']
      exact ⟨fun _ => ⟨d, hfalls, hown⟩, fun _ => rfl⟩
    · have hkept := hdown.kept r fun d hfalls hown => absurd ⟨d, hfalls, hown⟩ howner
      simp [hkept, hopen, howner]
  · intro hlive hnone
    rw [value_destroy_of_live hlive fun r hown => absurd hown (hnone r), bury_of_not_owned hnone]

/-- A command `a` whose registry holds `b` twice, `a` itself and an alias of `d`.  Both `a` and
`b` stand below `b`, next to `e`; only `d` and its aliases lead to `f`. -/
def tangled : Store where
  commands :=
    [{ keyword := "a", children := some (.owned ⟨0⟩) },
      { keyword := "b", children := some (.owned ⟨1⟩) },
      { keyword := "c", children := some (.borrowed ⟨2⟩) },
      { keyword := "d", children := some (.owned ⟨2⟩) }, { keyword := "e" }, { keyword := "f" }]
  registries :=
    [{ items := [⟨1⟩, ⟨1⟩, ⟨0⟩, ⟨2⟩] }, { items := [⟨0⟩, ⟨4⟩, ⟨1⟩] }, { items := [⟨5⟩] }]

theorem drags_tangled (h : ReflTransGen tangled.Drags ⟨0⟩ d) :
    d ∈ ([⟨0⟩, ⟨1⟩, ⟨2⟩, ⟨4⟩] : List CommandId) := by
  induction h with
  | refl => decide
  | tail _ hdrags ih =>
    have hclosed : ∀ d ∈ ([⟨0⟩, ⟨1⟩, ⟨2⟩, ⟨4⟩] : List CommandId), ∀ e ∈ tangled.heirs d,
        e ∈ ([⟨0⟩, ⟨1⟩, ⟨2⟩, ⟨4⟩] : List CommandId) := by decide
    exact hclosed _ ih _ (drags_iff.1 hdrags).2

/-- With `a` go `b` and `e`, and the alias, but not what the alias borrows; destroying the alias
changes nothing else. -/
theorem tangled_falls :
    ((tangled.destroy ⟨0⟩).value.command ⟨4⟩).destroyed = true ∧
    (tangled.destroy ⟨0⟩).value.command ⟨3⟩ = tangled.command ⟨3⟩ ∧
    (tangled.destroy ⟨0⟩).value.command ⟨5⟩ = tangled.command ⟨5⟩ ∧
    ((tangled.destroy ⟨0⟩).value.registry ⟨1⟩).destroyed = true ∧
    (tangled.destroy ⟨0⟩).value.registry ⟨2⟩ = tangled.registry ⟨2⟩ ∧
    (tangled.destroy ⟨2⟩).value = tangled.setCommand ⟨2⟩ (tangled.command ⟨2⟩).destroy := by
  obtain ⟨-, hdown, hcommands, hregistries, -⟩ := destroy_falls tangled ⟨0⟩
  obtain ⟨-, -, -, -, halias, -⟩ := destroy_falls tangled ⟨2⟩
  have hb : tangled.Drags ⟨0⟩ ⟨1⟩ := drags_iff.2 (by decide)
  have he : tangled.Drags ⟨1⟩ ⟨4⟩ := drags_iff.2 (by decide)
  refine ⟨?_, ?_, ?_, ?_, ?_, ?_⟩
  · exact (hcommands ⟨4⟩ (by decide)).2 ((ReflTransGen.single hb).tail he)
  · exact hdown.standing ⟨3⟩ fun h => absurd (drags_tangled h.2) (by decide)
  · exact hdown.standing ⟨5⟩ fun h => absurd (drags_tangled h.2) (by decide)
  · exact (hregistries ⟨1⟩ (by decide)).2 ⟨⟨1⟩, ⟨by decide, .single hb⟩, by decide⟩
  · refine hdown.kept ⟨2⟩ fun d hd hown => ?_
    have hnone : ∀ d ∈ ([⟨0⟩, ⟨1⟩, ⟨2⟩, ⟨4⟩] : List CommandId), ¬ tangled.Owns d ⟨2⟩ := by decide
    exact absurd hown (hnone d (drags_tangled hd.2))
  · exact halias (by decide) fun r hr => by cases hr

end CommandShell.Store
