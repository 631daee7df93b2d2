import CommandShell.Proofs.Line.Descent
import CommandShell.Proofs.Store.Acyclic

/-!
# The routes through a tree

A route is a sequence of words that leads from a command down to another one.  Listed in the
order in which a reader of the help meets them, each route comes before those that continue
it, and of two routes that part, the one through the command that was registered earlier
comes first.  This order is strict, so no route is listed twice.
-/

namespace CommandShell.Store

open Relation

variable {s : Store} {c d : CommandId}

/-! ## Listing the routes -/

/-- The routes of at most `levels` words, with the commands that they lead to. -/
def routesWithin (s : Store) : Nat → CommandId → List (List String × CommandId)
  | 0, _ => []
  | levels + 1, c => (s.subcommands c).flatMap fun d =>
    ([s.keyword d], d) ::
      (routesWithin s levels d).map fun route => (s.keyword d :: route.1, route.2)

/-- The routes from a command on, with the commands that they lead to.  Below a command there
are no more levels than registries. -/
def routes (s : Store) (c : CommandId) : List (List String × CommandId) :=
  s.routesWithin s.registries.length c

theorem Grounded.routesWithin_succ {levels : Nat} {c : CommandId} (h : s.Grounded c)
    (hlevels : (s.below c).card ≤ levels) :
    s.routesWithin (levels + 1) c = s.routesWithin levels c := by
  induction levels generalizing c with
  | zero =>
    have hnone : s.subcommands c = [] := by
      refine List.eq_nil_iff_forall_not_mem.2 fun d hd => ?_
      have := h.card_below_lt hd
      omega
    simp [routesWithin, hnone]
  | succ levels ih =>
    rw [routesWithin, routesWithin]
    refine List.flatMap_congr fun d hd => ?_
    have := h.card_below_lt hd
    rw [ih (h.of_parent hd) (by omega)]

theorem Grounded.routes_eq (h : s.Grounded c) :
    s.routes c = (s.subcommands c).flatMap fun d =>
      ([s.keyword d], d) :: (s.routes d).map fun route => (s.keyword d :: route.1, route.2) := by
  rw [routes, ← h.routesWithin_succ (s.card_below_le c), routesWithin]
  rfl

theorem Grounded.mem_routes_iff (h : s.Grounded c) {words : List String} :
    (words, d) ∈ s.routes c ↔ ∃ e ∈ s.subcommands c,
      (words = [s.keyword e] ∧ d = e) ∨
        ∃ rest, (rest, d) ∈ s.routes e ∧ words = s.keyword e :: rest := by
  rw [h.routes_eq]
  simp only [List.mem_flatMap, List.mem_cons, List.mem_map, Prod.mk.injEq, Prod.exists]
  grind

theorem WellNamed.of_parent (h : s.WellNamed c) (hcd : s.Parent c d) : s.WellNamed d := by
  intro e hde
  exact h e (hde.head hcd)

/-- The routes from a command on are the walks of at least one word. -/
theorem Grounded.mem_routes (h : s.Grounded c) (hnamed : s.WellNamed c) {words : List String} :
    (words, d) ∈ s.routes c ↔ words ≠ [] ∧ ∃ path, s.Walk c words path d := by
  induction h generalizing words with
  | intro c hacc ih =>
    have hground : s.Grounded c := ⟨c, hacc⟩
    rw [hground.mem_routes_iff]
    constructor
    · rintro ⟨e, he, ⟨rfl, rfl⟩ | ⟨rest, hrest, rfl⟩⟩
      · have hfind := (hnamed.find_eq_some_iff .refl).2 ⟨he, rfl⟩
        exact ⟨by simp, _, .cons hfind (.nil d)⟩
      · have hfind := (hnamed.find_eq_some_iff .refl).2 ⟨he, rfl⟩
        obtain ⟨-, path, hpath⟩ := (ih e he (hnamed.of_parent he)).1 hrest
        exact ⟨by simp, _, .cons hfind hpath⟩
    · rintro ⟨hwords, path, hwalk⟩
      cases hwalk with
      | nil => exact absurd rfl hwords
      | @cons _ e _ word rest path hfind hrest =>
        obtain ⟨he, rfl⟩ := find_eq_some hfind
        refine ⟨e, he, ?_⟩
        by_cases hempty : rest = []
        · subst hempty
          cases hrest
          exact .inl ⟨rfl, rfl⟩
        · exact .inr ⟨rest, (ih e he (hnamed.of_parent he)).2 ⟨hempty, _, hrest⟩, rfl⟩

/-! ## The order of the routes -/

/-- The first route is met before the second when going down from a command, depth first and
in the order of registration. -/
inductive Before (s : Store) : CommandId → List String → List String → Prop
  | onward (c : CommandId) (word : String) (rest : List String) : Before s c [] (word :: rest)
  | aside {c : CommandId} {word word' : String}
    (h : [word, word'].Sublist ((s.subcommands c).map s.keyword)) (rest rest' : List String) :
    Before s c (word :: rest) (word' :: rest')
  | along {c d : CommandId} {word : String} {rest rest' : List String}
    (hfind : (s.find c word).value = some d) (h : Before s d rest rest') :
    Before s c (word :: rest) (word :: rest')

/-- No route is met before itself: that would take two sub-commands of one keyword. -/
theorem WellNamed.not_before_self (h : s.WellNamed c) (words : List String) :
    ¬ s.Before c words words := by
  induction words generalizing c with
  | nil => rintro ⟨⟩
  | cons word rest ih =>
    rintro (_ | hsub | ⟨hfind, hrest⟩)
    · exact List.nodup_iff_sublist.1 (h c .refl).2 word hsub
    · exact ih (h.of_parent (find_eq_some hfind).1) hrest

theorem Grounded.pairwise_routes (h : s.Grounded c) (hnamed : s.WellNamed c) :
    (s.routes c).Pairwise fun first second => s.Before c first.1 second.1 := by
  induction h with
  | intro c hacc ih =>
    have hground : s.Grounded c := ⟨c, hacc⟩
    rw [hground.routes_eq, List.pairwise_flatMap]
    constructor
    · intro d hd
      have hfind := (hnamed.find_eq_some_iff .refl).2 ⟨hd, rfl⟩
      have hd' := hnamed.of_parent hd
      refine List.pairwise_cons.2 ⟨?_, ?_⟩
      · intro route hroute
        obtain ⟨⟨rest, e⟩, hrest, rfl⟩ := List.mem_map.1 hroute
        obtain ⟨hne, -⟩ := (Grounded.mem_routes (hacc d hd) hd').1 hrest
        obtain ⟨word, rest, rfl⟩ := List.exists_cons_of_ne_nil hne
        exact .along hfind (.onward d word rest)
      · rw [List.pairwise_map]
        exact (ih d hd hd').imp fun hbefore => .along hfind hbefore
    · -- Two sub-commands stand in the order in which they were registered.
      rw [List.pairwise_iff_forall_sublist]
      intro d e hsub
      have hkeywords := hsub.map s.keyword
      intro first hfirst second hsecond
      have hhead : ∀ {d : CommandId} {route : List String × CommandId},
          route ∈ ([s.keyword d], d) ::
            (s.routes d).map (fun route => (s.keyword d :: route.1, route.2)) →
          ∃ rest, route.1 = s.keyword d :: rest := by
        intro d route hroute
        rcases List.mem_cons.1 hroute with rfl | hroute
        · exact ⟨[], rfl⟩
        · obtain ⟨below, -, rfl⟩ := List.mem_map.1 hroute
          exact ⟨below.1, rfl⟩
      obtain ⟨rest, hrest⟩ := hhead hfirst
      obtain ⟨rest', hrest'⟩ := hhead hsecond
      rw [hrest, hrest']
      exact .aside hkeywords rest rest'

/-- No route is listed twice. -/
theorem Grounded.nodup_routes (h : s.Grounded c) (hnamed : s.WellNamed c) :
    ((s.routes c).map Prod.fst).Nodup := by
  rw [List.Nodup, List.pairwise_map]
  refine (h.pairwise_routes hnamed).imp ?_
  intro first second hbefore heq
  rw [heq] at hbefore
  exact hnamed.not_before_self second.1 hbefore

end CommandShell.Store
