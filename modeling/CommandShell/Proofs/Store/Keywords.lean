import CommandShell.Proofs.Store.Operation
import CommandShell.Store.Lookup

/-!
# Keywords name sub-commands

The commands of one registry have keywords, and no two of them the same one, whoever
refers to the registry and however it came to hold them.  So a look-up by keyword has at
most one answer, and none right after the command was unregistered.
-/

namespace CommandShell.Store

open Relation

variable {s t : Store}

/-! ## Looking up -/

/-- In a list without repeated keys, the first element with a key is the only one. -/
theorem find?_key_eq_some_iff {α : Type} {key : α → String} {xs : List α}
    (hnodup : (xs.map key).Nodup) {k : String} {x : α} :
    (xs.find? fun y => key y == k) = some x ↔ x ∈ xs ∧ key x = k := by
  constructor
  · intro h
    have hkey := List.find?_some h
    exact ⟨List.mem_of_find?_eq_some h, by simpa using hkey⟩
  · rintro ⟨hx, rfl⟩
    cases h : xs.find? fun y => key y == key x with
    | none =>
      have := List.find?_eq_none.1 h x hx
      simp at this
    | some y =>
      have hy := List.mem_of_find?_eq_some h
      have hkey : key y = key x := by simpa using List.find?_some h
      rw [List.inj_on_of_nodup_map hnodup hy hx hkey]

theorem Sound.findIn_eq_some_iff (hs : s.Sound) {r : RegistryId} {k : String} {d : CommandId} :
    s.findIn r k = some d ↔ d ∈ s.itemsOf r ∧ s.keyword d = k :=
  find?_key_eq_some_iff (hs.distinct r)

theorem Sound.find_eq_some_iff (hs : s.Sound) {c : CommandId} {k : String} {d : CommandId} :
    (s.find c k).value = some d ↔ d ∈ s.subcommands c ∧ s.keyword d = k := by
  rw [value_find]
  refine find?_key_eq_some_iff ?_
  unfold subcommands
  cases s.registryOf c with
  | none => simp
  | some r => exact hs.distinct r

theorem find_eq_none_iff {c : CommandId} {k : String} :
    (s.find c k).value = none ↔ ∀ d ∈ s.subcommands c, s.keyword d ≠ k := by
  simp [value_find]

/-! ## Unregistering -/

theorem shrinks_of_burials (h : ReflTransGen Burial s t) : Shrinks s t := by
  induction h with
  | refl => exact Shrinks.refl s
  | tail _ hlast ih =>
    obtain ⟨d, -, rfl⟩ := hlast
    exact ih.trans (shrinks_bury _ d)

theorem shrinks_destroy (s : Store) (c : CommandId) : Shrinks s (s.destroy c).value :=
  shrinks_of_burials (burials_destroyAll s [c])

/-- Unregistering strikes the command with the keyword from the registry, then only takes
away. -/
theorem unregister_eq_true {parent child : CommandId}
    (h : (s.unregister parent child).value.1 = true) :
    ∃ r position c, s.registryOf parent = some r ∧ s.findIn r (s.keyword child) = some c ∧
      s.position? r c = some position ∧
      Shrinks (s.strike r position) (s.unregister parent child).value.2 := by
  rw [value_unregister] at h ⊢
  split at h
  next r position c hfound =>
    obtain ⟨r', hr, hfound⟩ := Option.bind_eq_some_iff.1 hfound
    obtain ⟨c', hc, hfound⟩ := Option.bind_eq_some_iff.1 hfound
    obtain ⟨position', hposition, heq⟩ := Option.map_eq_some_iff.1 hfound
    cases heq
    exact ⟨r, position, c, hr, hc, hposition, shrinks_destroy _ c⟩
  next => exact absurd h Bool.false_ne_true

/-- Once the command with a keyword is struck from a registry, none there has it. -/
theorem Sound.keyword_ne_of_strike (hs : s.Sound) {r : RegistryId} {k : String} {c : CommandId}
    {position : Nat} (hc : s.findIn r k = some c) (hposition : s.position? r c = some position)
    {d : CommandId} (hd : d ∈ (s.strike r position).itemsOf r) : s.keyword d ≠ k := by
  rw [itemsOf_strike, if_pos rfl, List.mem_eraseIdx_iff_getElem] at hd
  obtain ⟨i, hi, hne, rfl⟩ := hd
  obtain ⟨hlt, heq, -⟩ := List.findIdx?_eq_some_iff_getElem.1 hposition
  have hkeyword := (hs.findIn_eq_some_iff.1 hc).2
  have hat : (s.itemsOf r)[position] = c := by simpa using heq
  intro hsame
  have hi' : i < ((s.itemsOf r).map s.keyword).length := by simpa using hi
  have hlt' : position < ((s.itemsOf r).map s.keyword).length := by simpa using hlt
  have hkeys : ((s.itemsOf r).map s.keyword)[i] = ((s.itemsOf r).map s.keyword)[position] := by
    rw [List.getElem_map, List.getElem_map, hsame, hat, hkeyword]
  exact hne ((hs.distinct r).getElem_inj_iff.1 hkeys)

/-- After a command was unregistered, no sub-command has its keyword, through whichever
command that shares the registry one looks. -/
theorem Sound.keyword_ne_of_unregister (hs : s.Sound) {parent child : CommandId}
    (h : (s.unregister parent child).value.1 = true) {c d : CommandId}
    (hc : s.registryOf c = s.registryOf parent)
    (hd : d ∈ (s.unregister parent child).value.2.subcommands c) :
    s.keyword d ≠ s.keyword child := by
  obtain ⟨r, position, e, hr, he, hposition, hshrinks⟩ := unregister_eq_true h
  obtain ⟨q, hq, hd⟩ := parent_iff.1 hd
  have hqr : q = r := Option.some.inj ((hshrinks.registryOf hq).symm.trans (hc.trans hr))
  rw [hqr] at hd
  exact hs.keyword_ne_of_strike he hposition ((hshrinks.itemsOf r).subset hd)

theorem keyword_unregister (s : Store) (parent child c : CommandId) :
    (s.unregister parent child).value.2.keyword c = s.keyword c := by
  rw [value_unregister]
  split
  next r position d _ => exact ((shrinks_strike s r position).trans (shrinks_destroy _ d)).keyword c
  next => rfl

/-- **What was unregistered is not found any more.** -/
theorem Sound.find_unregister (hs : s.Sound) {parent child : CommandId}
    (h : (s.unregister parent child).value.1 = true) :
    ((s.unregister parent child).value.2.find parent (s.keyword child)).value = none := by
  rw [find_eq_none_iff]
  intro d hd
  rw [keyword_unregister]
  exact hs.keyword_ne_of_unregister h rfl hd

/-- **Keywords name sub-commands**, in every store that operations on commands lead to:
every registry holds commands with non-empty and pairwise different keywords, a look-up
answers with the only command that has the keyword, and right after a command was
unregistered its keyword is not found under that parent. -/
theorem reachable_keywords (h : s.Reachable) :
    (∀ r, (∀ d ∈ s.itemsOf r, s.keyword d ≠ "") ∧ ((s.itemsOf r).map s.keyword).Nodup) ∧
    (∀ r k d, s.findIn r k = some d ↔ d ∈ s.itemsOf r ∧ s.keyword d = k) ∧
    (∀ c k d, (s.find c k).value = some d ↔ d ∈ s.subcommands c ∧ s.keyword d = k) ∧
    (∀ parent child t, (s.unregister parent child).value = (true, t) →
      t.keyword child = s.keyword child ∧ (t.find parent (t.keyword child)).value = none) := by
  have hs := h.sound
  refine ⟨fun r => ⟨fun d hd => hs.named hd, hs.distinct r⟩, fun r k d => hs.findIn_eq_some_iff,
    fun c k d => hs.find_eq_some_iff, ?_⟩
  intro parent child t hvalue
  have hkeyword : t.keyword child = s.keyword child := by
    have := s.keyword_unregister parent child child
    rwa [hvalue] at this
  have htrue : (s.unregister parent child).value.1 = true := by rw [hvalue]
  have hnone := hs.find_unregister htrue
  rw [hvalue] at hnone
  exact ⟨hkeyword, by rw [hkeyword]; exact hnone⟩

/-- Commands `a` and `b` and an alias of `a`. -/
def paired : Store :=
  [Operation.create { keyword := "a" }, .create { keyword := "b" }, .makeAlias ⟨0⟩ "c"].foldl
    Operation.perform {}

theorem register_paired : (paired.register ⟨0⟩ ⟨1⟩).value = (true, paired.enlist ⟨0⟩ ⟨1⟩) := by
  -- Nothing is registered under `b`, so the search for a cycle ends at once.
  have hreaches : paired.reaches ⟨1⟩ ⟨0⟩ = false := by
    rw [reaches, searchFor, show paired.registryOf ⟨1⟩ = none from rfl]
    dsimp only
    rw [searchFor]
  rw [value_register, show paired.ensureRegistry ⟨0⟩ = (⟨0⟩, paired) from rfl]
  dsimp only
  rw [hreaches, if_neg (by decide), if_neg (by decide)]

theorem reachable_paired : (paired.enlist ⟨0⟩ ⟨1⟩).Reachable := by
  have hempty : Reachable {} := ReflTransGen.refl
  have ha := hempty.perform (.create { keyword := "a" }) (by decide)
  have hb := ha.perform (.create { keyword := "b" }) (by decide)
  have hc := hb.perform (.makeAlias ⟨0⟩ "c") (by decide)
  have hab := hc.perform (.register ⟨0⟩ ⟨1⟩) (by decide)
  change (paired.register ⟨0⟩ ⟨1⟩).value.2.Reachable at hab
  rwa [register_paired] at hab

/-- The command `b`, registered under `a`, is unregistered through the alias of `a`. -/
theorem paired_keywords :
    (paired.enlist ⟨0⟩ ⟨1⟩).Reachable ∧
      ((paired.enlist ⟨0⟩ ⟨1⟩).unregister ⟨2⟩ ⟨1⟩).value.1 = true ∧
      (((paired.enlist ⟨0⟩ ⟨1⟩).unregister ⟨2⟩ ⟨1⟩).value.2.find ⟨2⟩ "b").value = none := by
  have htrue : ((paired.enlist ⟨0⟩ ⟨1⟩).unregister ⟨2⟩ ⟨1⟩).value.1 = true := by
    rw [value_unregister]
    rfl
  have hgone := (reachable_keywords reachable_paired).2.2.2 ⟨2⟩ ⟨1⟩ _ (Prod.ext htrue rfl)
  rw [hgone.1] at hgone
  exact ⟨reachable_paired, htrue, hgone.2⟩

end CommandShell.Store
