import CommandShell.Proofs.Help.Rows
import Mathlib.Order.Bounds.Basic

/-!
# The widths of the columns

The widths of the help are measured in one pass over everything below a command, with the
widest fields so far handed on from command to command.  A command is met as often as there
are ways to it.  What comes out depends on none of this: each width is the largest that one of
the commands below has in that column.

A width is known by its upper bounds: it is at most `n` just in case the width at the start
and all fields below are.  Everything else follows from that.
-/

namespace CommandShell

open Relation

/-- The columns that are measured. -/
inductive Column where
  /-- Keyword and hints together. -/
  | usage
  /-- The keyword. -/
  | keyword
  /-- The hints. -/
  | argHints
  /-- The description. -/
  | description

/-- The number of characters that a command takes in a column. -/
def Column.measure (face : Face) : Column → Int
  | usage => face.keyword.length + face.argHints.length
  | keyword => face.keyword.length
  | argHints => face.argHints.length
  | description => face.description.length

theorem Column.measure_nonneg (column : Column) (face : Face) : 0 ≤ column.measure face := by
  cases column <;> simp only [measure] <;> omega

namespace Widths

/-- The width of a column. -/
def of (w : Widths) : Column → Int
  | .usage => w.usage
  | .keyword => w.keyword
  | .argHints => w.argHints
  | .description => w.description

theorem ext_of {w v : Widths} (h : ∀ column, w.of column = v.of column) : w = v := by
  cases w
  cases v
  rw [mk.injEq]
  exact ⟨h .usage, h .keyword, h .argHints, h .description⟩

@[simp] theorem of_max (w v : Widths) (column : Column) :
    (w.max v).of column = Max.max (w.of column) (v.of column) := by
  cases column <;> rfl

@[simp] theorem of_ofFace (face : Face) (column : Column) :
    (ofFace face).of column = column.measure face := by
  cases column <;> rfl

@[simp] theorem of_empty (column : Column) : ({} : Widths).of column = 0 := by
  cases column <;> rfl

/-- The upper bounds of a width that was widened by some commands in turn. -/
theorem of_foldl_max_le_iff (faces : List Face) (w : Widths) (column : Column) (n : Int) :
    (faces.foldl (fun w face => w.max (ofFace face)) w).of column ≤ n ↔
      w.of column ≤ n ∧ ∀ face ∈ faces, column.measure face ≤ n := by
  induction faces generalizing w with
  | nil => simp
  | cons face faces ih =>
    rw [List.foldl_cons, ih, of_max, of_ofFace, max_le_iff, List.forall_mem_cons, and_assoc]

end Widths

namespace Store

variable {s t : Store} {c c' d : CommandId}

/-- The number of characters that a command of the store takes in a column. -/
def measure (s : Store) (column : Column) (c : CommandId) : Int :=
  column.measure (s.command c).toFace

/-! ## What is below a command -/

/-- There is a route to every command below, and to no other. -/
theorem Grounded.mem_map_routes (h : s.Grounded c) :
    d ∈ (s.routes c).map Prod.snd ↔ TransGen s.Parent c d := by
  rw [show d ∈ (s.routes c).map Prod.snd ↔ ∃ words, (words, d) ∈ s.routes c by simp]
  induction h with
  | intro c hacc ih =>
    have hground : s.Grounded c := ⟨c, hacc⟩
    simp only [hground.mem_routes_iff]
    constructor
    · rintro ⟨words, e, he, ⟨-, rfl⟩ | ⟨rest, hrest, -⟩⟩
      · exact .single he
      · exact .head he ((ih e he).1 ⟨rest, hrest⟩)
    · intro hcd
      obtain ⟨e, he, hed⟩ := TransGen.head'_iff.1 hcd
      obtain rfl | hed := reflTransGen_iff_eq_or_transGen.1 hed
      · exact ⟨_, d, he, .inl ⟨rfl, rfl⟩⟩
      · obtain ⟨rest, hrest⟩ := (ih e he).2 hed
        exact ⟨_, e, he, .inr ⟨rest, hrest, rfl⟩⟩

/-- **The upper bounds of a width** are those of the width at the start and of all fields
below. -/
theorem Grounded.of_longest_le_iff (h : s.Grounded c) (w : Widths) (column : Column) (n : Int) :
    (s.longest c w).of column ≤ n ↔
      w.of column ≤ n ∧ ∀ d, TransGen s.Parent c d → s.measure column d ≤ n := by
  have hpass : s.longest c w =
      (((s.routes c).map Prod.snd).map fun d => (s.command d).toFace).foldl
        (fun w face => w.max (Widths.ofFace face)) w := by
    rw [h.longest_eq_foldl, List.foldl_map, List.foldl_map]
  rw [hpass, Widths.of_foldl_max_le_iff, List.forall_mem_map]
  simp only [h.mem_map_routes, measure]

/-! ## The widths -/

/-- Measuring can be done from nothing, and the widths at the start be taken in afterwards,
if there is something to measure or no width at the start is negative. -/
theorem Grounded.longest_eq_max (h : s.Grounded c) {w : Widths}
    (hw : (∃ d, TransGen s.Parent c d) ∨ ∀ column, 0 ≤ w.of column) :
    s.longest c w = w.max (s.longest c) := by
  refine Widths.ext_of fun column => eq_of_forall_ge_iff fun n => ?_
  rw [Widths.of_max, max_le_iff, h.of_longest_le_iff, h.of_longest_le_iff, Widths.of_empty]
  refine and_congr_right fun hstart => (and_iff_right_of_imp fun hbelow => ?_).symm
  obtain ⟨d, hd⟩ | hw := hw
  · exact (column.measure_nonneg _).trans (hbelow d hd)
  · exact (hw column).trans hstart

theorem Grounded.longest_of_none (h : s.Grounded c) (hnone : ¬ ∃ d, TransGen s.Parent c d)
    (w : Widths) : s.longest c w = w := by
  refine Widths.ext_of fun column => eq_of_forall_ge_iff fun n => ?_
  rw [h.of_longest_le_iff]
  exact and_iff_left fun d hd => absurd ⟨d, hd⟩ hnone

/-- The width of a column is the largest field below.  If none was as large, one less would be
an upper bound. -/
theorem Grounded.isGreatest_longest (h : s.Grounded c) (hsome : ∃ d, TransGen s.Parent c d)
    (column : Column) :
    IsGreatest {n | ∃ d, TransGen s.Parent c d ∧ n = s.measure column d}
      ((s.longest c).of column) := by
  have hupper : ∀ d, TransGen s.Parent c d → s.measure column d ≤ (s.longest c).of column :=
    ((h.of_longest_le_iff {} column _).1 le_rfl).2
  refine ⟨?_, ?_⟩
  · by_contra hnone
    have hless : ∀ d, TransGen s.Parent c d →
        s.measure column d ≤ (s.longest c).of column - 1 := by
      intro d hd
      have hne : (s.longest c).of column ≠ s.measure column d := fun heq => hnone ⟨d, hd, heq⟩
      have := hupper d hd
      omega
    obtain ⟨d, hd⟩ := hsome
    have hnonneg : 0 ≤ (s.longest c).of column - 1 :=
      (column.measure_nonneg _).trans (hless d hd)
    have := (h.of_longest_le_iff {} column _).2 ⟨by simpa using hnonneg, hless⟩
    omega
  · rintro n ⟨d, hd, rfl⟩
    exact hupper d hd

/-- Only the fields below matter. -/
theorem Grounded.longest_congr (h : s.Grounded c) (h' : t.Grounded c')
    (hsame : ∀ face, (∃ d, TransGen s.Parent c d ∧ (s.command d).toFace = face) ↔
      ∃ d, TransGen t.Parent c' d ∧ (t.command d).toFace = face) (w : Widths) :
    t.longest c' w = s.longest c w := by
  refine Widths.ext_of fun column => eq_of_forall_ge_iff fun n => ?_
  rw [h.of_longest_le_iff, h'.of_longest_le_iff]
  refine and_congr_right fun _ => ?_
  constructor
  · intro hbelow d hd
    obtain ⟨e, he, hface⟩ := (hsame _).1 ⟨d, hd, rfl⟩
    rw [measure, ← hface]
    exact hbelow e he
  · intro hbelow d hd
    obtain ⟨e, he, hface⟩ := (hsame _).2 ⟨d, hd, rfl⟩
    rw [measure, ← hface]
    exact hbelow e he

/-- **Each width is the largest of the fields below**, in a tree in which no command stands
below itself.  Measured from widths at the start, the larger ones come out, unless there is
nothing to measure: then the widths at the start stay as they are, also where they are
negative.  Measured from nothing, the width of a column is the largest number of characters
that a command below takes in it, and zero if there is none.  So what comes out is the same
for every tree with the same fields below, in whatever order and number they are met. -/
theorem longest_widest
    (hacyclic : ∀ d, ReflTransGen s.Parent c d → ¬ TransGen s.Parent d d) :
    (∀ w : Widths, ((∃ d, TransGen s.Parent c d) ∨ ∀ column, 0 ≤ w.of column) →
      s.longest c w = w.max (s.longest c)) ∧
    ((∃ d, TransGen s.Parent c d) → ∀ column,
      IsGreatest {n | ∃ d, TransGen s.Parent c d ∧ n = column.measure (s.command d).toFace}
        ((s.longest c).of column)) ∧
    ((¬ ∃ d, TransGen s.Parent c d) →
      s.longest c = ⟨0, 0, 0, 0⟩ ∧ ∀ w : Widths, s.longest c w = w) ∧
    ∀ (t : Store) (c' : CommandId),
      (∀ d, ReflTransGen t.Parent c' d → ¬ TransGen t.Parent d d) →
      (∀ face, (∃ d, TransGen s.Parent c d ∧ (s.command d).toFace = face) ↔
        ∃ d, TransGen t.Parent c' d ∧ (t.command d).toFace = face) →
      ∀ w : Widths, t.longest c' w = s.longest c w := by
  have hground := grounded_iff.2 hacyclic
  refine ⟨fun w => hground.longest_eq_max, hground.isGreatest_longest, ?_, ?_⟩
  · intro hnone
    exact ⟨hground.longest_of_none hnone {}, hground.longest_of_none hnone⟩
  · intro t c' hacyclic'
    exact hground.longest_congr (grounded_iff.2 hacyclic')

/-- The commands of `borrowedLog`, registered in another order, and without the alias borrowing
what is below `log`. -/
def unborrowedLog : Store where
  commands :=
    [{ children := some (.owned ⟨0⟩) },
      { keyword := "log", argHints := " <cmd>", description := "log options",
        children := some (.owned ⟨1⟩) },
      { keyword := "level", argHints := " <0..5>", description := "the level" },
      { keyword := "l", description := "the same" }]
  registries := [{ items := [⟨3⟩, ⟨1⟩] }, { items := [⟨2⟩] }]

theorem grounded_unborrowedLog : unborrowedLog.Grounded ⟨0⟩ := by
  have hleaf : unborrowedLog.Grounded ⟨2⟩ := Acc.intro _ fun d hd => by cases hd
  refine Acc.intro _ fun d hd => Acc.intro _ fun e he => ?_
  have hall : ∀ d ∈ unborrowedLog.subcommands ⟨0⟩, ∀ e ∈ unborrowedLog.subcommands d, e = ⟨2⟩ := by
    decide
  rw [hall d hd e he]
  exact hleaf

/-- The longest usage is that of `level`, the longest description that of `log`, whether `level`
is met twice or once, first or last. -/
theorem borrowedLog_widest :
    (∀ d, ReflTransGen borrowedLog.Parent ⟨0⟩ d → ¬ TransGen borrowedLog.Parent d d) ∧
    (∀ d, ReflTransGen unborrowedLog.Parent ⟨0⟩ d → ¬ TransGen unborrowedLog.Parent d d) ∧
    borrowedLog.longest ⟨0⟩ = ⟨12, 5, 7, 11⟩ ∧
    borrowedLog.longest ⟨0⟩ ⟨-1, 20, 0, 0⟩ = ⟨12, 20, 7, 11⟩ ∧
    unborrowedLog.longest ⟨0⟩ ⟨-1, 20, 0, 0⟩ = ⟨12, 20, 7, 11⟩ := by
  have hacyclic := grounded_iff.1 grounded_borrowedLog
  have hacyclic' := grounded_iff.1 grounded_unborrowedLog
  have hbelow : ∀ d, TransGen borrowedLog.Parent ⟨0⟩ d ↔ TransGen unborrowedLog.Parent ⟨0⟩ d := by
    intro d
    rw [← grounded_borrowedLog.mem_map_routes, ← grounded_unborrowedLog.mem_map_routes,
      show (borrowedLog.routes ⟨0⟩).map Prod.snd = [⟨1⟩, ⟨2⟩, ⟨3⟩, ⟨2⟩] by decide,
      show (unborrowedLog.routes ⟨0⟩).map Prod.snd = [⟨3⟩, ⟨1⟩, ⟨2⟩] by decide]
    simp only [List.mem_cons, List.not_mem_nil]
    tauto
  have hface : ∀ d, (unborrowedLog.command d).toFace = (borrowedLog.command d).toFace := by
    rintro ⟨_ | _ | _ | _ | n⟩ <;> rfl
  have hsome : ∃ d, TransGen borrowedLog.Parent ⟨0⟩ d :=
    ⟨⟨1⟩, .single (show _ ∈ borrowedLog.subcommands ⟨0⟩ by decide)⟩
  have hmeasured : borrowedLog.longest ⟨0⟩ = ⟨12, 5, 7, 11⟩ := by decide
  obtain ⟨hmax, -, -, hsame⟩ := longest_widest hacyclic
  have hstart : borrowedLog.longest ⟨0⟩ ⟨-1, 20, 0, 0⟩ = ⟨12, 20, 7, 11⟩ := by
    rw [hmax _ (.inl hsome), hmeasured]
    rfl
  refine ⟨hacyclic, hacyclic', hmeasured, hstart, ?_⟩
  rw [hsame unborrowedLog ⟨0⟩ hacyclic', hstart]
  simp only [hbelow, hface, implies_true]

/-- A command with nothing below it. -/
def solitary : Store where
  commands := [{}]

/-- Where there is nothing to measure, a negative width at the start does not become zero. -/
theorem solitary_longest :
    (∀ d, ¬ TransGen solitary.Parent d d) ∧
    solitary.longest ⟨0⟩ ⟨-1, 0, 0, 0⟩ = ⟨-1, 0, 0, 0⟩ ∧
    solitary.longest ⟨0⟩ ⟨-1, 0, 0, 0⟩ ≠
      (⟨-1, 0, 0, 0⟩ : Widths).max (solitary.longest ⟨0⟩) := by
  refine ⟨?_, rfl, by decide⟩
  intro d hd
  obtain ⟨e, he, -⟩ := TransGen.head'_iff.1 hd
  obtain ⟨r, -, hmem⟩ := parent_iff.1 he
  exact absurd (solitary.hasRegistry_of_mem_itemsOf hmem) (Nat.not_lt_zero _)

end Store

end CommandShell
