import CommandShell.Proofs.Store.Reach

/-!
# The search for a registry ends

The search keeps a stack of commands.  In each round it takes the one on top, passes over it
if it has no registry or one that was opened before, and otherwise puts the commands of that
registry on the stack.  The stack may hold a command many times, and it may grow.  But a
registry is opened only once, so no more commands are ever put on the stack than stand in all
registries together; each round takes one off.
-/

namespace CommandShell.Store

open Relation

variable {s : Store} {target r : RegistryId} {c : CommandId}

/-- How far a search has come. -/
structure Search where
  /-- The stack of commands, the top one first. -/
  pending : List CommandId
  /-- The registries that were opened. -/
  opened : List RegistryId

namespace Search

/-- One round: an answer, or how far the search has come with it.  The command that stands
last in a registry comes to lie on top. -/
def round (s : Store) (target : RegistryId) : Search → Bool ⊕ Search
  | ⟨[], _⟩ => .inl false
  | ⟨c :: rest, opened⟩ =>
    match s.registryOf c with
    | none => .inr ⟨rest, opened⟩
    | some r =>
      if r ∈ opened then .inr ⟨rest, opened⟩
      else if r = target then .inl true
      else .inr ⟨(s.itemsOf r).reverse ++ rest, r :: opened⟩

/-- The search gives this answer after so many rounds without one. -/
inductive Ends (s : Store) (target : RegistryId) : Search → Nat → Bool → Prop
  | now {x : Search} {answer : Bool} (h : x.round s target = .inl answer) :
    Ends s target x 0 answer
  | later {x y : Search} {rounds : Nat} {answer : Bool} (h : x.round s target = .inr y)
    (hrest : Ends s target y rounds answer) : Ends s target x (rounds + 1) answer

variable (x : Search)

/-- The registries that were not opened yet. -/
def unopened (s : Store) : List RegistryId := s.allRegistries.diff x.opened

/-- The commands on the stack, and those that can still be put there. -/
def potential (s : Store) : Nat :=
  x.pending.length + ((x.unopened s).flatMap s.itemsOf).length

/-- A command on the stack leads to the target through registries that were not opened yet. -/
def Finds (s : Store) (target : RegistryId) : Prop :=
  ∃ c ∈ x.pending, s.LeadsWithin (x.unopened s) target c

theorem nodup_unopened : (x.unopened s).Nodup := nodup_allRegistries.diff

theorem mem_unopened : r ∈ x.unopened s ↔ s.HasRegistry r ∧ r ∉ x.opened := by
  rw [unopened, nodup_allRegistries.mem_sdiff_iff, mem_allRegistries]

/-! ## One round -/

/-- A command that is only taken off the stack, since it leads nowhere. -/
theorem drop_spec {rest : List CommandId} {opened : List RegistryId}
    (hc : ¬ s.LeadsWithin (unopened ⟨c :: rest, opened⟩ s) target c) :
    (⟨rest, opened⟩ : Search).potential s < (⟨c :: rest, opened⟩ : Search).potential s ∧
      (Finds ⟨rest, opened⟩ s target ↔ Finds ⟨c :: rest, opened⟩ s target) := by
  constructor
  · simp only [potential, unopened, List.length_cons]
    omega
  · simp only [Finds, List.exists_mem_cons_iff]
    exact (or_iff_right hc).symm

/-- A registry is opened: what it holds is on the stack now, and cannot be put there again. -/
theorem open_spec {rest : List CommandId} {opened : List RegistryId}
    (hc : s.registryOf c = some r) (hopened : r ∉ opened) (hne : r ≠ target) :
    (⟨(s.itemsOf r).reverse ++ rest, r :: opened⟩ : Search).potential s <
        (⟨c :: rest, opened⟩ : Search).potential s ∧
      (Finds ⟨(s.itemsOf r).reverse ++ rest, r :: opened⟩ s target ↔
        Finds ⟨c :: rest, opened⟩ s target) := by
  let before : Search := ⟨c :: rest, opened⟩
  have hunopened : unopened ⟨(s.itemsOf r).reverse ++ rest, r :: opened⟩ s =
      (before.unopened s).erase r := List.diff_cons_right ..
  by_cases hr : s.HasRegistry r
  · have hmem : r ∈ before.unopened s := before.mem_unopened.2 ⟨hr, hopened⟩
    constructor
    · have hlength : ((before.unopened s).flatMap s.itemsOf).length =
          (s.itemsOf r).length + (((before.unopened s).erase r).flatMap s.itemsOf).length := by
        rw [((List.perm_cons_erase hmem).flatMap_right s.itemsOf).length_eq, List.flatMap_cons,
          List.length_append]
      rw [potential, hunopened, potential, hlength]
      simp only [List.length_append, List.length_reverse, List.length_cons, before]
      omega
    · rw [Finds, hunopened]
      simp only [List.mem_append, List.mem_reverse]
      simp only [← List.mem_append]
      exact exists_leadsWithin_erase before.nodup_unopened hc hmem hne rest
  · -- A registry that the store does not have holds nothing.
    have hmem : r ∉ before.unopened s := fun h => hr (before.mem_unopened.1 h).1
    have hitems : s.itemsOf r = [] := by
      rw [itemsOf, s.registry_of_not_hasRegistry hr]
      rfl
    have hnowhere : ¬ s.LeadsWithin (before.unopened s) target c := not_leadsWithin hc hmem
    have hdrop := drop_spec hnowhere
    rw [List.erase_of_not_mem hmem] at hunopened
    rw [potential, Finds, hunopened, hitems]
    exact hdrop

/-- What a round does: its answer is right, or it lowers the potential and leaves what is to
be found. -/
theorem round_spec (htarget : s.HasRegistry target) :
    match x.round s target with
    | .inl answer => answer = true ↔ x.Finds s target
    | .inr y => y.potential s < x.potential s ∧ (y.Finds s target ↔ x.Finds s target) := by
  obtain ⟨pending, opened⟩ := x
  cases pending with
  | nil => simp [round, Finds]
  | cons c rest =>
    cases hc : s.registryOf c with
    | none =>
      simp only [round, hc]
      exact drop_spec (not_leadsWithin_of_none hc)
    | some r =>
      by_cases hopened : r ∈ opened
      · simp only [round, hc, if_pos hopened]
        refine drop_spec (not_leadsWithin hc fun h => ?_)
        exact ((mem_unopened _).1 h).2 hopened
      · by_cases hr : r = target
        · subst hr
          simp only [round, hc, if_neg hopened, if_pos, true_iff]
          exact ⟨c, List.mem_cons_self, .here hc ((mem_unopened _).2 ⟨htarget, hopened⟩)⟩
        · simp only [round, hc, if_neg hopened, if_neg hr]
          exact open_spec hc hopened hr

/-! ## All rounds -/

/-- A search ends with the right answer, in no more rounds than its potential.  The induction
is on the potential. -/
theorem exists_ends (htarget : s.HasRegistry target) :
    ∃ rounds ≤ x.potential s, ∃ answer, Ends s target x rounds answer ∧
      (answer = true ↔ x.Finds s target) := by
  induction hn : x.potential s using Nat.strongRecOn generalizing x with
  | ind n ih =>
    have hround := x.round_spec htarget
    cases hx : x.round s target with
    | inl answer =>
      rw [hx] at hround
      exact ⟨0, Nat.zero_le n, answer, .now hx, hround⟩
    | inr y =>
      rw [hx] at hround
      obtain ⟨hlower, hfinds⟩ := hround
      obtain ⟨rounds, hle, answer, hends, hanswer⟩ := ih _ (hn ▸ hlower) y rfl
      exact ⟨rounds + 1, by omega, answer, .later hx hends, hanswer.trans hfinds⟩

end Search

/-- **The search for a registry ends, and its answer is right**, in every store: also where
registries hold a command more than once, or commands stand below themselves.  There are at
most as many rounds as commands stand in all registries, and one.  The search says yes exactly
if the registry is that of the command, or of one that can be reached from it through
registries of sub-commands, owned or borrowed. -/
theorem search_ends (hr : s.HasRegistry r) (c : CommandId) :
    (∃ rounds ≤ (s.allRegistries.flatMap s.itemsOf).length + 1,
      Search.Ends s r ⟨[c], []⟩ rounds (s.reaches c r)) ∧
    (s.reaches c r = true ↔
      ∃ d, ReflTransGen (fun c d => d ∈ s.subcommands c) c d ∧ s.registryOf d = some r) := by
  refine ⟨?_, reaches_iff hr c⟩
  obtain ⟨rounds, hle, answer, hends, hanswer⟩ := Search.exists_ends ⟨[c], []⟩ hr
  have hfinds : Search.Finds ⟨[c], []⟩ s r ↔ s.reaches c r = true := by
    rw [reaches_iff hr, ← leadsWithin_all_iff hr]
    simp [Search.Finds, Search.unopened]
  have hsame : answer = s.reaches c r := Bool.eq_iff_iff.2 (hanswer.trans hfinds)
  refine ⟨rounds, ?_, hsame ▸ hends⟩
  simpa [Search.potential, Search.unopened, Nat.add_comm] using hle

/-- A command `a` whose registry holds an alias `b` twice and `a` itself.  The alias borrows the
registry of `c`, where `a` and `b` stand again; `d` is elsewhere. -/
def knotted : Store where
  commands :=
    [{ keyword := "a", children := some (.owned ⟨0⟩) },
      { keyword := "b", children := some (.borrowed ⟨1⟩) },
      { keyword := "c", children := some (.owned ⟨1⟩) },
      { keyword := "d", children := some (.owned ⟨2⟩) }]
  registries := [{ items := [⟨1⟩, ⟨1⟩, ⟨0⟩] }, { items := [⟨0⟩, ⟨1⟩] }, {}]

/-- From `a` one comes to what `b` borrows.  The search for the registry of `d` ends too. -/
theorem knotted_search :
    knotted.HasRegistry ⟨1⟩ ∧ knotted.HasRegistry ⟨2⟩ ∧ knotted.reaches ⟨0⟩ ⟨1⟩ = true ∧
    knotted.reaches ⟨0⟩ ⟨2⟩ = false ∧
    ∃ rounds ≤ 6, Search.Ends knotted ⟨2⟩ ⟨[⟨0⟩], []⟩ rounds false := by
  have hborrowed : knotted.HasRegistry ⟨1⟩ := by decide
  have helsewhere : knotted.HasRegistry ⟨2⟩ := by decide
  obtain ⟨-, hyes⟩ := search_ends hborrowed ⟨0⟩
  obtain ⟨⟨rounds, hle, hends⟩, hno⟩ := search_ends helsewhere ⟨0⟩
  have hclosed : ∀ d ∈ ([⟨0⟩, ⟨1⟩] : List CommandId), ∀ e ∈ knotted.subcommands d,
      e ∈ ([⟨0⟩, ⟨1⟩] : List CommandId) := by decide
  have hnone : ∀ d ∈ ([⟨0⟩, ⟨1⟩] : List CommandId), knotted.registryOf d ≠ some ⟨2⟩ := by decide
  have hfalse : knotted.reaches ⟨0⟩ ⟨2⟩ = false := by
    rw [← Bool.not_eq_true, hno]
    rintro ⟨d, hd, hregistry⟩
    have hbelow : d ∈ ([⟨0⟩, ⟨1⟩] : List CommandId) := by
      clear hregistry
      induction hd with
      | refl => decide
      | tail _ hstep ih => exact hclosed _ ih _ hstep
    exact hnone d hbelow hregistry
  refine ⟨hborrowed, helsewhere, hyes.2 ⟨⟨1⟩, .single (by decide), rfl⟩, hfalse, rounds, hle, ?_⟩
  rwa [hfalse] at hends

end CommandShell.Store
