import CommandShell.Help
import CommandShell.Proofs.Store.Operation
import Mathlib.Data.Finset.Card
import Mathlib.Order.WellFounded

/-!
# No command stands below itself

Registering a command is refused if the command already leads to the registry it is to
join.  Everything else adds no link to a command that was there before, or takes links
away.  So the sub-command relation stays well-founded, whatever is registered, shared,
borrowed, copied and destroyed.

The walks over everything below a command are bounded by the number of registries.
Where no command stands below itself the bound is never met: a path visits a registry at
most once.  There the walks satisfy the equations of the unbounded recursion.
-/

namespace CommandShell.Store

open Relation

/-- Going down from a command to its sub-commands always comes to an end. -/
def Acyclic (s : Store) : Prop := WellFounded fun d c => s.Parent c d

variable {s t : Store}

/-- Going down from this command always comes to an end. -/
def Grounded (s : Store) (c : CommandId) : Prop := Acc (fun d c => s.Parent c d) c

theorem Acyclic.grounded (h : s.Acyclic) (c : CommandId) : s.Grounded c := h.apply c

theorem Grounded.of_parent {c d : CommandId} (h : s.Grounded c) (hcd : s.Parent c d) :
    s.Grounded d :=
  Acc.inv h hcd

/-- A command from which going down comes to an end does not stand below itself: one of its
sub-commands would, and so on. -/
theorem Grounded.not_transGen {c : CommandId} (h : s.Grounded c) : ¬ TransGen s.Parent c c := by
  induction h with
  | intro c _ ih =>
    intro hc
    obtain ⟨d, hcd, hdc⟩ := TransGen.head'_iff.1 hc
    exact ih d hcd (TransGen.tail' hdc hcd)

/-! ## Changes that add no link to an older command -/

theorem Acyclic.mono (h : s.Acyclic) (hsub : ∀ c d, t.Parent c d → s.Parent c d) : t.Acyclic :=
  Subrelation.wf (fun hdc => hsub _ _ hdc) h

theorem Acyclic.of_shrinks (h : s.Acyclic) (hst : Shrinks s t) : t.Acyclic := by
  refine h.mono fun c d hcd => ?_
  obtain ⟨r, hr, hd⟩ := parent_iff.1 hcd
  exact parent_iff.2 ⟨r, hst.registryOf hr, (hst.itemsOf r).subset hd⟩

/-- A command that stands below nothing may be given sub-commands. -/
theorem Acyclic.of_top (h : s.Acyclic) (n : CommandId)
    (hparent : ∀ c d, t.Parent c d → c = n ∨ s.Parent c d) (htop : ∀ c, ¬ t.Parent c n) :
    t.Acyclic := by
  have hne : ∀ c d, t.Parent c d → d ≠ n := fun c d hcd hd => htop c (hd ▸ hcd)
  have hold : ∀ c, c ≠ n → Acc (fun d c => t.Parent c d) c := by
    intro c
    induction c using h.induction with
    | _ c ih =>
      intro hc
      refine Acc.intro c fun d hcd => ?_
      obtain rfl | hcd' := hparent c d hcd
      · exact absurd rfl hc
      · exact ih d hcd' (hne c d hcd)
  refine ⟨fun c => ?_⟩
  by_cases hc : c = n
  · exact Acc.intro c fun d hcd => hold d (hne c d hcd)
  · exact hold c hc

/-- A command may be linked below every command of a registry to which it does not
lead.  What stands below it is not touched by the new links, so it is accessible first;
then everything else is. -/
theorem Acyclic.of_link (h : s.Acyclic) (child : CommandId) (r : RegistryId)
    (hparent : ∀ c d, t.Parent c d → s.Parent c d ∨ d = child ∧ s.registryOf c = some r)
    (hleads : ¬ s.Leads child r) : t.Acyclic := by
  have hbelow : ∀ c, ¬ s.Leads c r → Acc (fun d c => t.Parent c d) c := by
    intro c
    induction c using h.induction with
    | _ c ih =>
      intro hc
      refine Acc.intro c fun d hcd => ?_
      obtain hcd | ⟨-, hr⟩ := hparent c d hcd
      · exact ih d hcd fun hd => hc (hd.of_parent hcd)
      · exact absurd (leads_of_registryOf hr) hc
  refine ⟨fun c => ?_⟩
  induction c using h.induction with
  | _ c ih =>
    refine Acc.intro c fun d hcd => ?_
    obtain hcd | ⟨rfl, -⟩ := hparent c d hcd
    · exact ih d hcd
    · exact hbelow d hleads

/-! ## Every elementary change -/

/-- After a change, a link was there before, goes down from the new command, or leads to
the command that was registered. -/
theorem Acyclic.of_change (hs : s.Sound) (h : s.Acyclic) (hchange : Change s t) :
    t.Acyclic := by
  cases hchange with
  | create face =>
    refine h.mono fun c d hcd => ?_
    obtain ⟨r, hr, hd⟩ := parent_iff.1 hcd
    rw [registryOf_addCommand] at hr
    split_ifs at hr with hc
    · simp at hr
    · exact parent_iff.2 ⟨r, hr, hd⟩
  | borrow hq hface =>
    refine h.of_top s.nextCommand ?_ ?_
    · intro c d hcd
      obtain ⟨r, hr, hd⟩ := parent_iff.1 hcd
      rw [registryOf_addCommand] at hr
      split_ifs at hr with hc
      · exact .inl hc
      · exact .inr (parent_iff.2 ⟨r, hr, hd⟩)
    · intro c hcn
      obtain ⟨r, -, hn⟩ := parent_iff.1 hcn
      exact s.not_hasCommand_nextCommand (hs.items hn)
  | found face hitems hnamed hdistinct =>
    refine h.of_top s.nextCommand ?_ ?_
    · intro c d hcd
      obtain ⟨r, hr, hd⟩ := parent_iff.1 hcd
      rw [registryOf_found] at hr
      split_ifs at hr with hc
      · exact .inl hc
      · have hne : r ≠ s.nextRegistry := by
          rintro rfl
          exact s.not_hasRegistry_nextRegistry (hs.refs hr)
        rw [itemsOf_found, if_neg hne] at hd
        exact .inr (parent_iff.2 ⟨r, hr, hd⟩)
    · intro c hcn
      obtain ⟨r, -, hn⟩ := parent_iff.1 hcn
      rw [itemsOf_found] at hn
      split_ifs at hn with hr
      · exact s.not_hasCommand_nextCommand (hitems _ hn)
      · exact s.not_hasCommand_nextCommand (hs.items hn)
  | mark e flags =>
    refine h.mono fun c d hcd => ?_
    obtain ⟨r, hr, hd⟩ := parent_iff.1 hcd
    exact parent_iff.2 ⟨r, by simpa using hr, hd⟩
  | furnish he hnone =>
    refine h.mono fun c d hcd => ?_
    obtain ⟨r, hr, hd⟩ := parent_iff.1 hcd
    rw [itemsOf_furnish] at hd
    rw [registryOf_furnish _ he] at hr
    split_ifs at hr with hc
    · cases hr
      exact absurd (s.hasRegistry_of_mem_itemsOf hd) s.not_hasRegistry_nextRegistry
    · exact parent_iff.2 ⟨r, hr, hd⟩
  | @enlist q child hq hchild hnamed hfree hleads =>
    refine h.of_link child q ?_ hleads
    intro c d hcd
    obtain ⟨r, hr, hd⟩ := parent_iff.1 hcd
    rw [registryOf_enlist] at hr
    rw [itemsOf_enlist _ (s.hasRegistry_of_live hq)] at hd
    split_ifs at hd with hrq
    · subst hrq
      obtain hd | hd := List.mem_append.1 hd
      · exact .inl (parent_iff.2 ⟨r, hr, hd⟩)
      · exact .inr ⟨List.mem_singleton.1 hd, hr⟩
    · exact .inl (parent_iff.2 ⟨r, hr, hd⟩)
  | strike q position => exact h.of_shrinks (shrinks_strike s q position)
  | @bury e he => exact h.of_shrinks (shrinks_bury s e)

theorem acyclic_empty : Acyclic {} := by
  refine ⟨fun c => Acc.intro c fun d hcd => ?_⟩
  obtain ⟨r, hr, -⟩ := parent_iff.1 hcd
  simp [registryOf, command, Command.missing] at hr

theorem Reachable.acyclic (h : s.Reachable) : s.Acyclic :=
  h.invariant acyclic_empty fun hs hacyclic hchange => hacyclic.of_change hs hchange

/-! ## A path meets no registry twice -/

/-- The registries of a command and of all that stand below it. -/
def below (s : Store) (c : CommandId) : Finset RegistryId :=
  (s.allRegistries.filter fun r => s.reaches c r).toFinset

theorem mem_below {c : CommandId} {r : RegistryId} :
    r ∈ s.below c ↔ s.HasRegistry r ∧ s.Leads c r := by
  rw [below, List.mem_toFinset, List.mem_filter, mem_allRegistries]
  exact and_congr_right fun hr => reaches_iff hr c

theorem card_below_le (s : Store) (c : CommandId) : (s.below c).card ≤ s.registries.length := by
  have hall : s.allRegistries.length = s.registries.length := by simp [allRegistries]
  calc
    (s.below c).card ≤ (s.allRegistries.filter fun r => s.reaches c r).length :=
      List.toFinset_card_le _
    _ ≤ s.allRegistries.length := List.length_filter_le _ _
    _ = s.registries.length := hall

/-- Below a sub-command there is at least one registry less: the one that it stands in. -/
theorem card_below_lt {c d : CommandId} (hcd : s.Parent c d) (hd : ¬ TransGen s.Parent d d) :
    (s.below d).card < (s.below c).card := by
  obtain ⟨r, hr, hmem⟩ := parent_iff.1 hcd
  refine Finset.card_lt_card ⟨?_, ?_⟩
  · intro q hq
    obtain ⟨hhas, hleads⟩ := mem_below.1 hq
    exact mem_below.2 ⟨hhas, hleads.of_parent hcd⟩
  · intro hsub
    have hbelow : r ∈ s.below c :=
      mem_below.2 ⟨s.hasRegistry_of_mem_itemsOf hmem, leads_of_registryOf hr⟩
    -- A command below `d` with this registry would have `d` as its sub-command again.
    obtain ⟨-, e, hde, he⟩ := mem_below.1 (hsub hbelow)
    exact hd (TransGen.tail' hde (parent_iff.2 ⟨r, he, hmem⟩))

theorem Grounded.card_below_lt {c d : CommandId} (h : s.Grounded c) (hcd : s.Parent c d) :
    (s.below d).card < (s.below c).card :=
  Store.card_below_lt hcd (h.of_parent hcd).not_transGen

/-- Only a command that stands below itself keeps going down from coming to an end. -/
theorem grounded_iff {c : CommandId} :
    s.Grounded c ↔ ∀ d, ReflTransGen s.Parent c d → ¬ TransGen s.Parent d d := by
  constructor
  · intro h d hcd
    induction hcd using ReflTransGen.head_induction_on with
    | refl => exact h.not_transGen
    | head hce _ ih => exact ih (h.of_parent hce)
  · intro h
    induction hn : (s.below c).card using Nat.strongRecOn generalizing c with
    | ind n ih =>
      refine Acc.intro c fun d hcd => ?_
      have hlt := Store.card_below_lt hcd (h d (.single hcd))
      exact ih _ (hn ▸ hlt) (fun e hde => h e (hde.head hcd)) rfl

theorem Grounded.outlineWithin_succ {levels : Nat} {c : CommandId} (h : s.Grounded c)
    (hlevels : (s.below c).card ≤ levels) :
    s.outlineWithin (levels + 1) c = s.outlineWithin levels c := by
  induction levels generalizing c with
  | zero =>
    have hnone : s.subcommands c = [] := by
      refine List.eq_nil_iff_forall_not_mem.2 fun d hd => ?_
      have := h.card_below_lt hd
      omega
    simp [outlineWithin, hnone]
  | succ levels ih =>
    rw [outlineWithin, outlineWithin, List.map_congr_left]
    intro d hd
    have := h.card_below_lt hd
    exact ih (h.of_parent hd) (by omega)

theorem Grounded.cuttingWithin_succ {levels : Nat} {c : CommandId} (h : s.Grounded c)
    (hlevels : (s.below c).card ≤ levels) :
    s.cuttingWithin (levels + 1) c = s.cuttingWithin levels c := by
  have hparent : ∀ {c d r}, (s.command c).children = some (.owned r) → d ∈ s.itemsOf r →
      s.Parent c d := fun hr hd => parent_iff.2 ⟨_, s.registryOf_of_children hr, hd⟩
  induction levels generalizing c with
  | zero =>
    unfold cuttingWithin
    dsimp only
    split
    next => rfl
    next => rfl
    next r hr =>
      have hnone : s.itemsOf r = [] := by
        refine List.eq_nil_iff_forall_not_mem.2 fun d hd => ?_
        have := h.card_below_lt (hparent hr hd)
        omega
      simp [hnone]
  | succ levels ih =>
    unfold cuttingWithin
    dsimp only
    split
    next => rfl
    next => rfl
    next r hr =>
      rw [List.map_congr_left]
      intro d hd
      have := h.card_below_lt (hparent hr hd)
      exact ih (h.of_parent (hparent hr hd)) (by omega)

/-! ## The walks are the unbounded recursions -/

theorem Grounded.outline_eq {c : CommandId} (h : s.Grounded c) :
    s.outline c =
      .node (s.command c).toFace (s.registryOf c).isSome ((s.subcommands c).map s.outline) := by
  rw [outline, ← h.outlineWithin_succ (s.card_below_le c), outlineWithin]
  rfl

theorem Grounded.cutting_eq {c : CommandId} (h : s.Grounded c) :
    s.cutting c =
      match (s.command c).children with
      | none => .bare (s.command c).toFace
      | some (.borrowed r) => .borrowing (s.command c).toFace r
      | some (.owned r) => .owning (s.command c).toFace ((s.itemsOf r).map s.cutting) := by
  rw [cutting, ← h.cuttingWithin_succ (s.card_below_le c), cuttingWithin]
  rfl

@[simp] theorem face_outline (s : Store) (c : CommandId) :
    (s.outline c).face = (s.command c).toFace := by
  unfold outline
  cases s.registries.length <;> rfl

/-- Measuring goes over the sub-commands in order, each with everything below it. -/
theorem Grounded.longest_eq {c : CommandId} (h : s.Grounded c) (w : Widths) :
    s.longest c w = (s.subcommands c).foldl
      (fun w d => s.longest d (w.max (Widths.ofFace (s.command d).toFace))) w := by
  have hall : ∀ (ds : List CommandId) (w : Widths), Outline.widenAll w (ds.map s.outline) =
      ds.foldl (fun w d => s.longest d (w.max (Widths.ofFace (s.command d).toFace))) w := by
    intro ds
    induction ds with
    | nil => intro w; rfl
    | cons d ds ih =>
      intro w
      rw [List.map_cons, Outline.widenAll, face_outline, ih]
      rfl
  rw [longest, h.outline_eq, Outline.widen, hall]

/-- The help goes over the sub-commands in order: a row for each, then the rows for
everything below it. -/
theorem Grounded.helpRows_eq {c : CommandId} (h : s.Grounded c) (depth column : Int)
    (path : String) :
    s.helpRows c depth (some column) path =
      (s.subcommands c).flatMap fun d =>
        helpRow (spaces (helpIndent * depth) ++ pathBelow path (s.command c).toFace) column
            (s.command d).toFace
          :: s.helpRows d (depth + 1) (some column) (pathBelow path (s.command c).toFace) := by
  have hall : ∀ (ds : List CommandId) (path : String),
      Outline.rowsOf depth column path (ds.map s.outline) = ds.flatMap fun d =>
        helpRow (spaces (helpIndent * depth) ++ path) column (s.command d).toFace
          :: s.helpRows d (depth + 1) (some column) path := by
    intro ds path
    induction ds with
    | nil => rfl
    | cons d ds ih =>
      rw [List.map_cons, Outline.rowsOf, face_outline, ih]
      rfl
  rw [helpRows, Option.getD_some, h.outline_eq, Outline.rows, hall]

/-- **No command stands below itself**, in any store that operations on commands lead to.
Going down to sub-commands, owned or borrowed, therefore always ends; measuring, printing
the help and copying are the recursions over the sub-commands that they are meant to be,
with no bound on their depth. -/
theorem reachable_acyclic (h : s.Reachable) :
    (∀ c, ¬ TransGen (fun c d => d ∈ s.subcommands c) c c) ∧
    WellFounded (fun d c => d ∈ s.subcommands c) ∧
    (∀ c w, s.longest c w = (s.subcommands c).foldl
      (fun w d => s.longest d (w.max (Widths.ofFace (s.command d).toFace))) w) ∧
    (∀ c depth column path, s.helpRows c depth (some column) path =
      (s.subcommands c).flatMap fun d =>
        helpRow (spaces (helpIndent * depth) ++ pathBelow path (s.command c).toFace) column
            (s.command d).toFace
          :: s.helpRows d (depth + 1) (some column) (pathBelow path (s.command c).toFace)) ∧
    (∀ c, s.cutting c =
      match (s.command c).children with
      | none => .bare (s.command c).toFace
      | some (.borrowed r) => .borrowing (s.command c).toFace r
      | some (.owned r) => .owning (s.command c).toFace ((s.itemsOf r).map s.cutting)) := by
  have hground := h.acyclic.grounded
  exact ⟨fun c => (hground c).not_transGen, h.acyclic, fun c => (hground c).longest_eq,
    fun c => (hground c).helpRows_eq, fun c => (hground c).cutting_eq⟩

theorem crossed_acyclic :
    crossed.Reachable ∧ ¬ TransGen (fun c d => d ∈ crossed.subcommands c) ⟨0⟩ ⟨0⟩ :=
  ⟨reachable_crossed, (reachable_acyclic reachable_crossed).1 ⟨0⟩⟩

end CommandShell.Store
