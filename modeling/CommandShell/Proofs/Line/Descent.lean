import CommandShell.Completion
import CommandShell.Proofs.Store.Keywords
import Mathlib.Order.Bounds.Defs

/-!
# Following words down the tree

Words lead from a command to another if each of them names a sub-command of the command
before.  The commands that `descend` lists are those on the longest such walk; where a line
stands in the tree is one of them.
-/

namespace CommandShell.Store

open Relation

variable {s : Store}

/-! ## Walks -/

/-- The words lead from a command to the last one, over those of `path`. -/
inductive Walk (s : Store) : CommandId → List String → List CommandId → CommandId → Prop
  | nil (c : CommandId) : Walk s c [] [] c
  | cons {c d e : CommandId} {word : String} {words : List String} {path : List CommandId}
    (hfind : (s.find c word).value = some d) (hrest : Walk s d words path e) :
    Walk s c (word :: words) (c :: path) e

theorem Walk.length_eq {c d : CommandId} {words : List String} {path : List CommandId}
    (h : s.Walk c words path d) : path.length = words.length := by
  induction h with
  | nil c => rfl
  | cons hfind hrest ih => rw [List.length_cons, List.length_cons, ih]

theorem Walk.length_le {c d : CommandId} {words : List String} {path : List CommandId}
    (h : s.Walk c (words.take path.length) path d) : path.length ≤ words.length := by
  have hlength := h.length_eq
  rw [List.length_take] at hlength
  omega

theorem Walk.concat {c d e : CommandId} {word : String} {words : List String}
    {path : List CommandId} (h : s.Walk c words path d)
    (hfind : (s.find d word).value = some e) : s.Walk c (words ++ [word]) (path ++ [d]) e := by
  induction h with
  | nil c => exact .cons hfind (.nil e)
  | cons hfirst hrest ih => exact .cons hfirst (ih hfind)

theorem Walk.of_concat {c e : CommandId} {word : String} {words : List String}
    {path : List CommandId} (h : s.Walk c (words ++ [word]) path e) :
    ∃ front d, path = front ++ [d] ∧ s.Walk c words front d ∧
      (s.find d word).value = some e := by
  induction words generalizing c path with
  | nil =>
    cases h with
    | cons hfind hrest =>
      cases hrest
      exact ⟨[], c, rfl, .nil c, hfind⟩
  | cons first rest ih =>
    cases h with
    | cons hfind hrest =>
      obtain ⟨front, d, rfl, hwalk, hlast⟩ := ih hrest
      exact ⟨c :: front, d, rfl, .cons hfind hwalk, hlast⟩

/-- What is found is a sub-command with the keyword. -/
theorem find_eq_some {c d : CommandId} {word : String} (h : (s.find c word).value = some d) :
    d ∈ s.subcommands c ∧ s.keyword d = word := by
  rw [value_find] at h
  have hkeyword := List.find?_some h
  exact ⟨List.mem_of_find?_eq_some h, by simpa using hkeyword⟩

/-- Walks go downwards. -/
theorem Walk.descends {c d : CommandId} {words : List String} {path : List CommandId}
    (h : s.Walk c words path d) : ReflTransGen s.Parent c d := by
  induction h with
  | nil c => exact .refl
  | cons hfind hrest ih => exact .head (find_eq_some hfind).1 ih

/-! ## The descent -/

theorem value_descend_nil (s : Store) (c : CommandId) : (s.descend c []).value = [c] := rfl

theorem value_descend_of_none {c : CommandId} {word : String}
    (h : (s.find c word).value = none) (rest : List String) :
    (s.descend c (word :: rest)).value = [c] := by
  rw [descend, Noted.value_bind, h]
  rfl

theorem value_descend_of_some {c d : CommandId} {word : String}
    (h : (s.find c word).value = some d) (rest : List String) :
    (s.descend c (word :: rest)).value = c :: (s.descend d rest).value := by
  rw [descend, Noted.value_bind, h]
  rfl

/-- The descent follows a walk and goes on from its end. -/
theorem Walk.descend_append {c d : CommandId} {words : List String} {path : List CommandId}
    (h : s.Walk c words path d) (rest : List String) :
    (s.descend c (words ++ rest)).value = path ++ (s.descend d rest).value := by
  induction h with
  | nil c => rfl
  | cons hfind hrest ih =>
    rw [List.cons_append, value_descend_of_some hfind, ih, List.cons_append]

theorem Walk.descend_eq {c d : CommandId} {words : List String} {path : List CommandId}
    (h : s.Walk c words path d) : (s.descend c words).value = path ++ [d] := by
  have := h.descend_append []
  rwa [List.append_nil, value_descend_nil] at this

/-- Words lead to one command only. -/
theorem Walk.end_unique {c d e : CommandId} {words : List String} {path others : List CommandId}
    (h : s.Walk c words path d) (h' : s.Walk c words others e) : d = e := by
  have heq := h.descend_eq.symm.trans h'.descend_eq
  exact List.singleton_inj.1 (List.append_inj_right' heq rfl)

theorem length_descend_pos (s : Store) (c : CommandId) (words : List String) :
    0 < (s.descend c words).value.length := by
  cases words with
  | nil => simp [value_descend_nil]
  | cons word rest =>
    cases h : (s.find c word).value with
    | none => simp [value_descend_of_none h]
    | some d => simp [value_descend_of_some h]

/-! ## Trees with distinct keywords -/

/-- Below a command, sub-commands of the same command have keywords, and different ones. -/
def WellNamed (s : Store) (root : CommandId) : Prop :=
  ∀ c, ReflTransGen s.Parent root c →
    (∀ d ∈ s.subcommands c, s.keyword d ≠ "") ∧ ((s.subcommands c).map s.keyword).Nodup

theorem WellNamed.find_eq_some_iff {root c d : CommandId} (h : s.WellNamed root)
    (hc : ReflTransGen s.Parent root c) {k : String} :
    (s.find c k).value = some d ↔ d ∈ s.subcommands c ∧ s.keyword d = k := by
  rw [value_find]
  exact find?_key_eq_some_iff (h c hc).2

/-- It is enough to look at the registries. -/
theorem wellNamed_of_registries (root : CommandId)
    (h : ∀ registry ∈ s.registries, (∀ d ∈ registry.items, s.keyword d ≠ "") ∧
      (registry.items.map s.keyword).Nodup) : s.WellNamed root := by
  intro c _
  unfold subcommands
  cases s.registryOf c with
  | none => simp
  | some r =>
    dsimp only [Option.map_some, Option.getD_some, itemsOf, registry]
    cases hr : s.registries[r.index]? with
    | none => simp [Registry.missing]
    | some found => exact h found (List.mem_of_getElem? hr)

/-! ## Where words stand -/

/-- The first `n` words can be followed from the root. -/
def Matched (s : Store) (root : CommandId) (words : List String) (n : Nat) : Prop :=
  n ≤ words.length ∧ ∃ path node, s.Walk root (words.take n) path node

/-- The descent is a walk along the first words, as many of them as can be followed. -/
theorem exists_walk_descend (s : Store) (root : CommandId) (words : List String) :
    ∃ path node, (s.descend root words).value = path ++ [node] ∧
      s.Walk root (words.take path.length) path node ∧
      IsGreatest {n | s.Matched root words n} path.length := by
  have hwalk : ∃ path node, (s.descend root words).value = path ++ [node] ∧
      s.Walk root (words.take path.length) path node := by
    induction words generalizing root with
    | nil => exact ⟨[], root, rfl, .nil root⟩
    | cons word rest ih =>
      cases h : (s.find root word).value with
      | none => exact ⟨[], root, value_descend_of_none h rest, .nil root⟩
      | some d =>
        obtain ⟨path, node, hpath, hwalk⟩ := ih d
        refine ⟨root :: path, node, ?_, .cons h hwalk⟩
        rw [value_descend_of_some h, hpath, List.cons_append]
  obtain ⟨path, node, hpath, hwalk⟩ := hwalk
  refine ⟨path, node, hpath, hwalk, ⟨hwalk.length_le, path, node, hwalk⟩, ?_⟩
  -- The descent goes on from the end of every other walk.
  rintro n ⟨hn, others, last, hothers⟩
  have hlength := congrArg List.length (hothers.descend_append (words.drop n))
  rw [List.take_append_drop, hpath, List.length_append, List.length_append, hothers.length_eq,
    List.length_take, Nat.min_eq_left hn, List.length_singleton] at hlength
  have hpos := s.length_descend_pos last (words.drop n)
  omega

/-- Where words stand in the tree if the first `m` of them, and no more, can be followed.  The next
word is completed where these lead.  If there is none, a delimiter at the end means that nothing
was typed yet of the next one; otherwise the last word is still touched by the cursor, and its
siblings complete the line. -/
inductive Position (s : Store) (root : CommandId) (words : List String) (trailing : Bool)
    (m : Nat) : Resolution → Prop
  | unmatched {word : String} {path : List CommandId} {node : CommandId}
    (hnext : words[m]? = some word) (hwalk : s.Walk root (words.take m) path node) :
    Position s root words trailing m ⟨node, m, some word⟩
  | ended {path : List CommandId} {node : CommandId} (hall : m = words.length)
    (htrailing : trailing = true) (hwalk : s.Walk root words path node) :
    Position s root words trailing m ⟨node, words.length, some ""⟩
  | touched {front : List String} {word : String} {path : List CommandId} {node : CommandId}
    (hall : m = words.length) (htrailing : trailing = false) (hlast : words = front ++ [word])
    (hwalk : s.Walk root front path node) :
    Position s root words trailing m ⟨node, front.length, some word⟩

theorem Position.unique {root : CommandId} {words : List String} {trailing : Bool} {m : Nat}
    {r r' : Resolution} (h : s.Position root words trailing m r)
    (h' : s.Position root words trailing m r') : r = r' := by
  cases h with
  | unmatched hnext hwalk =>
    have hlt := (List.getElem?_eq_some_iff.1 hnext).1
    cases h' with
    | unmatched hnext' hwalk' =>
      cases hnext.symm.trans hnext'
      rw [hwalk.end_unique hwalk']
    | ended hall => omega
    | touched hall => omega
  | ended hall htrailing hwalk =>
    cases h' with
    | unmatched hnext' =>
      have hlt := (List.getElem?_eq_some_iff.1 hnext').1
      omega
    | ended _ _ hwalk' => rw [hwalk.end_unique hwalk']
    | touched _ htrailing' =>
      rw [htrailing] at htrailing'
      cases htrailing'
  | touched hall htrailing hlast hwalk =>
    cases h' with
    | unmatched hnext' =>
      have hlt := (List.getElem?_eq_some_iff.1 hnext').1
      omega
    | ended _ htrailing' =>
      rw [htrailing] at htrailing'
      cases htrailing'
    | touched _ _ hlast' hwalk' =>
      obtain ⟨rfl, hword⟩ := List.append_inj' (hlast.symm.trans hlast') rfl
      cases hword
      rw [hwalk.end_unique hwalk']

/-- Words that are there have a place in the tree. -/
theorem resolve_position {root node : CommandId} {words : List String} {path : List CommandId}
    (hwords : words ≠ []) (hdescend : (s.descend root words).value = path ++ [node])
    (hwalk : s.Walk root (words.take path.length) path node) (trailing : Bool) :
    s.Position root words trailing path.length (s.resolve root words trailing).value := by
  have hle := hwalk.length_le
  have hlength : (path ++ [node]).length - 1 = path.length := by simp
  rw [resolve, Noted.value_bind, hdescend, hlength, List.getLastD_concat, List.dropLast_concat]
  dsimp only
  cases hnext : words[path.length]? with
  | some word => exact .unmatched hnext hwalk
  | none =>
    have hall : path.length = words.length := by
      have := List.getElem?_eq_none_iff.1 hnext
      omega
    rw [hall, List.take_length] at hwalk
    dsimp only
    rw [if_neg (by simpa using hwords)]
    cases trailing with
    | true =>
      rw [if_pos rfl, hall]
      exact .ended rfl rfl hwalk
    | false =>
      obtain ⟨front, word, rfl⟩ := (List.eq_nil_or_concat' words).resolve_left hwords
      obtain ⟨before, parent, rfl, hbefore, -⟩ := hwalk.of_concat
      rw [if_neg (by simp), List.getLastD_concat, List.getLast?_concat, hall]
      have hnest : (front ++ [word]).length - 1 = front.length := by simp
      rw [hnest]
      exact .touched rfl rfl rfl hbefore

/-- Words that are there stand at the end of a walk along the first of them.  The word to be
completed is the one after these; or, where all of them were followed and a delimiter comes
last, nothing was typed of it yet. -/
theorem resolve_spec (s : Store) (root : CommandId) {words : List String} (hwords : words ≠ [])
    (trailing : Bool) {r : Resolution} (hr : (s.resolve root words trailing).value = r) :
    ∃ start path, r.start? = some start ∧ s.Walk root (words.take r.nest) path r.node ∧
      (words[r.nest]? = some start ∨
        r.nest = words.length ∧ trailing = true ∧ start = "") := by
  obtain ⟨path, node, hdescend, hwalk, -⟩ := s.exists_walk_descend root words
  have hposition := resolve_position hwords hdescend hwalk trailing
  rw [hr] at hposition
  cases hposition with
  | @unmatched word path' _ hnext hwalk => exact ⟨word, path', rfl, hwalk, .inl hnext⟩
  | @ended path' _ _ htrailing hwalk =>
    exact ⟨"", path', rfl, by rwa [List.take_length], .inr ⟨rfl, htrailing, rfl⟩⟩
  | @touched front word path' _ _ _ hlast hwalk =>
    subst hlast
    exact ⟨word, path', rfl, by rwa [List.take_left], .inl (by simp)⟩

/-- Words that can all be followed, with a delimiter after them, stand at the end. -/
theorem Walk.resolve_eq {root d : CommandId} {words : List String} {path : List CommandId}
    (h : s.Walk root words path d) (hwords : words ≠ []) :
    (s.resolve root words true).value = ⟨d, words.length, some ""⟩ := by
  rw [resolve, Noted.value_bind, h.descend_eq]
  dsimp only
  have hlength : (path ++ [d]).length - 1 = words.length := by simp [h.length_eq]
  rw [hlength, List.getElem?_eq_none (Nat.le_refl _)]
  simp [hwords]

end CommandShell.Store
