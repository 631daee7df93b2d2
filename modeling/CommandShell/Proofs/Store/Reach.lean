import CommandShell.Proofs.Store.Frame
import Mathlib.Data.List.Nodup
import Mathlib.Logic.Relation

/-!
# The search for a registry is exact

A command leads to a registry if it, or a command that stands below it at any depth,
refers to that registry.  The search visits every registry once and follows a stack of
commands; it answers exactly this question, on every store, cyclic ones included.
-/

namespace CommandShell.Store

open Relation

variable (s : Store)

/-- `d` is a direct sub-command of `c`. -/
def Parent (c d : CommandId) : Prop := d ∈ s.subcommands c

/-- The registry is that of `c` or of a command below it. -/
def Leads (c : CommandId) (r : RegistryId) : Prop :=
  ∃ d, ReflTransGen s.Parent c d ∧ s.registryOf d = some r

variable {s}

theorem parent_iff {c d : CommandId} :
    s.Parent c d ↔ ∃ r, s.registryOf c = some r ∧ d ∈ s.itemsOf r := by
  unfold Parent subcommands
  cases s.registryOf c <;> simp

theorem leads_of_registryOf {c : CommandId} {r : RegistryId} (h : s.registryOf c = some r) :
    s.Leads c r :=
  ⟨c, .refl, h⟩

theorem Leads.of_parent {c d : CommandId} {r : RegistryId} (hcd : s.Parent c d)
    (h : s.Leads d r) : s.Leads c r := by
  obtain ⟨e, hde, he⟩ := h
  exact ⟨e, hde.head hcd, he⟩

/-! ## What the search looks for -/

/-- The command leads to `target` on a path all of whose registries are allowed. -/
inductive LeadsWithin (s : Store) (allowed : List RegistryId) (target : RegistryId) :
    CommandId → Prop
  | here {c : CommandId} (hc : s.registryOf c = some target) (ht : target ∈ allowed) :
    LeadsWithin s allowed target c
  | through {c d : CommandId} {r : RegistryId} (hc : s.registryOf c = some r) (hr : r ∈ allowed)
    (hd : d ∈ s.itemsOf r) (h : LeadsWithin s allowed target d) : LeadsWithin s allowed target c

theorem LeadsWithin.mono {allowed more : List RegistryId} {target : RegistryId} {c : CommandId}
    (h : s.LeadsWithin allowed target c) (hsub : allowed ⊆ more) :
    s.LeadsWithin more target c := by
  induction h with
  | here hc ht => exact .here hc (hsub ht)
  | through hc hr hd _ ih => exact .through hc (hsub hr) hd ih

/-- A path can do without a registry, or its part after the last visit to it can. -/
theorem LeadsWithin.avoid {allowed : List RegistryId} (hnodup : allowed.Nodup)
    {target r : RegistryId} (hr : r ≠ target) {c : CommandId}
    (h : s.LeadsWithin allowed target c) :
    s.LeadsWithin (allowed.erase r) target c ∨
      ∃ d ∈ s.itemsOf r, s.LeadsWithin (allowed.erase r) target d := by
  induction h with
  | here hc ht => exact .inl (.here hc ((hnodup.mem_erase_iff).2 ⟨hr.symm, ht⟩))
  | @through c d q hc hq hd _ ih =>
    obtain hrest | hlater := ih
    · by_cases hqr : q = r
      · subst hqr
        exact .inr ⟨d, hd, hrest⟩
      · exact .inl (.through hc ((hnodup.mem_erase_iff).2 ⟨hqr, hq⟩) hd hrest)
    · exact .inr hlater

/-- A command that refers to a registry which is not allowed leads nowhere. -/
theorem not_leadsWithin {allowed : List RegistryId} {target r : RegistryId} {c : CommandId}
    (hc : s.registryOf c = some r) (hr : r ∉ allowed) : ¬ s.LeadsWithin allowed target c := by
  rintro (⟨hc', ht⟩ | ⟨hc', hr', -, -⟩)
  · rw [hc, Option.some.injEq] at hc'
    exact hr (hc' ▸ ht)
  · rw [hc, Option.some.injEq] at hc'
    exact hr (hc' ▸ hr')

theorem not_leadsWithin_of_none {allowed : List RegistryId} {target : RegistryId}
    {c : CommandId} (hc : s.registryOf c = none) : ¬ s.LeadsWithin allowed target c := by
  rintro (⟨hc', -⟩ | ⟨hc', -, -, -⟩) <;> simp [hc] at hc'

/-! ## The search -/

/-- A registry other than the target is opened: its commands take the place of the command
that refers to it, and the registry is not needed any more.  A path from anywhere that returns
to it is cut down to its last part. -/
theorem exists_leadsWithin_erase {allowed : List RegistryId} (hnodup : allowed.Nodup)
    {target r : RegistryId} {c : CommandId} (hc : s.registryOf c = some r) (hr : r ∈ allowed)
    (hne : r ≠ target) (rest : List CommandId) :
    (∃ d ∈ s.itemsOf r ++ rest, s.LeadsWithin (allowed.erase r) target d) ↔
      ∃ d ∈ c :: rest, s.LeadsWithin allowed target d := by
  constructor
  · rintro ⟨d, hd, h⟩
    have h' := h.mono (List.erase_subset (a := r))
    obtain hd | hd := List.mem_append.1 hd
    · exact ⟨c, by simp, .through hc hr hd h'⟩
    · exact ⟨d, by simp [hd], h'⟩
  · rintro ⟨d, hd, h⟩
    obtain h | ⟨e, he, h⟩ := h.avoid hnodup hne
    · obtain rfl | hd := List.mem_cons.1 hd
      · exact absurd h (not_leadsWithin hc hnodup.not_mem_erase)
      · exact ⟨d, by simp [hd], h⟩
    · exact ⟨e, by simp [he], h⟩

/-- The search succeeds exactly if a pending command leads to the target through
unvisited registries.  The induction is the search's own. -/
theorem searchFor_iff (target : RegistryId) (unvisited : List RegistryId)
    (pending : List CommandId) (hnodup : unvisited.Nodup) :
    s.searchFor target unvisited pending = true ↔
      ∃ c ∈ pending, s.LeadsWithin unvisited target c := by
  fun_induction searchFor s target unvisited pending with
  | case1 unvisited => simp
  | case2 unvisited c rest hc ih =>
    rw [ih hnodup]
    simp [not_leadsWithin_of_none hc]
  | case3 unvisited c rest hc ht => simp [LeadsWithin.here hc ht]
  | case4 unvisited c rest r hc hr hne ih =>
    rw [ih (hnodup.erase r)]
    exact exists_leadsWithin_erase hnodup hc hr hne rest
  | case5 unvisited c rest r hc hr ih =>
    rw [ih hnodup]
    simp [not_leadsWithin hc hr]

theorem mem_allRegistries {r : RegistryId} : r ∈ s.allRegistries ↔ s.HasRegistry r := by
  obtain ⟨i⟩ := r
  simp [allRegistries, HasRegistry]

theorem nodup_allRegistries : s.allRegistries.Nodup := by
  refine List.Nodup.map ?_ List.nodup_range
  intro i j h
  exact RegistryId.mk.inj h

theorem leadsWithin_all_iff {r : RegistryId} (hr : s.HasRegistry r) {c : CommandId} :
    s.LeadsWithin s.allRegistries r c ↔ s.Leads c r := by
  constructor
  · intro h
    induction h with
    | here hc _ => exact leads_of_registryOf hc
    | through hc _ hd _ ih => exact ih.of_parent (parent_iff.2 ⟨_, hc, hd⟩)
  · rintro ⟨d, hcd, hd⟩
    induction hcd using ReflTransGen.head_induction_on with
    | refl => exact .here hd (mem_allRegistries.2 hr)
    | head hcd _ ih =>
      obtain ⟨q, hq, hmem⟩ := parent_iff.1 hcd
      exact .through hq (mem_allRegistries.2 (s.hasRegistry_of_mem_itemsOf hmem)) hmem ih

/-- **The search is exact**: it answers yes just in case the command leads to the
registry. -/
theorem reaches_iff {r : RegistryId} (hr : s.HasRegistry r) (c : CommandId) :
    s.reaches c r = true ↔ s.Leads c r := by
  rw [reaches, searchFor_iff _ _ _ nodup_allRegistries]
  simp [leadsWithin_all_iff hr]

end CommandShell.Store
