import CommandShell.Proofs.Run.Delegation
import CommandShell.Proofs.Store.Residence

/-!
# Lines that come to a destroyed command

A destroyed command has no handler, so a line that names it is answered with nought, as if all
were well.  Commands that are destroyed by unregistering alone are not found in this way, if
each of them stood in one registry only; one that stood in two registries is still found in the
other.
-/

namespace CommandShell

open Machine

variable {σ : Type}

/-- Below the limit on nesting, a line calls the command that its first word names. -/
theorem Interpreter.dispatch_of_find (I : Interpreter σ) {line word : String}
    {rest : List String} {m : Machine σ} {c : CommandId} (hdepth : m.depth < I.shell.maxDepth)
    (hwords : (I.shell.rules.tokenize line).value = word :: rest)
    (hfind : (m.workspace.store.find I.shell.root word).value = some c) :
    ∃ m₁, LogsOnly (enter line m) m₁ ∧
      I.dispatch line m =
        leave line (guarded m.words (I.callAt I.dispatch callLimit c (word :: rest) m₁)) := by
  obtain ⟨m₀, hm₀, hnested⟩ := nested_eq line (I.runLine I.dispatch line) m
  have hstore : m₀.workspace.store = m.workspace.store := hm₀.store
  have hsplit := logsOnly_tellAll m₀ (I.shell.rules.tokenize line).notes
  have hfound := hsplit.trans (logsOnly_tellAll _ (m.workspace.store.find I.shell.root word).notes)
  have hown := (hm₀.trans hfound).words
  refine ⟨_, hm₀.trans hfound, ?_⟩
  rw [I.dispatch_eq, if_pos hdepth, hnested]
  simp only [Interpreter.runLine, hwords, hsplit.store, hstore, hfind, hown]
  rfl

namespace Store

/-- What words lead to is found under the command before it. -/
theorem exists_find_of_mem_descend {s : Store} {top c : CommandId} {words : List String}
    (h : c ∈ (s.descend top words).value.tail) : ∃ p k, (s.find p k).value = some c := by
  induction words generalizing top with
  | nil => cases h
  | cons word rest ih =>
    cases hfind : (s.find top word).value with
    | none =>
      rw [value_descend_of_none hfind] at h
      cases h
    | some d =>
      obtain ⟨trail, htrail⟩ := Interpreter.exists_descend_eq_cons s d rest
      rw [value_descend_of_some hfind, List.tail_cons, htrail, List.mem_cons] at h
      obtain rfl | hmem := h
      · exact ⟨top, word, hfind⟩
      · exact ih (by rwa [htrail])

/-- **Nothing that is found is destroyed, unless it stood in two registries.**  Let operations
be carried out on an empty store, none of which destroys a command directly, and let a command
stand in one registry at most at the time when it is destroyed, if it is.  Then no registry
holds it unless it is not destroyed; so it is not destroyed if it is found by its keyword, if
words lead to it, or if a line calls it. -/
theorem live_of_destroyedAlone {ops : List Operation} {s : Store} {c : CommandId}
    (hops : Admits {} ops) (hspare : ∀ d, .destroy d ∉ ops) (halone : DestroyedAlone {} c ops)
    (hs : performAll {} ops = s) :
    (∀ r, c ∈ s.itemsOf r → (s.command c).destroyed = false) ∧
    (∀ p k, (s.find p k).value = some c → (s.command c).destroyed = false) ∧
    (∀ top words, c ∈ (s.descend top words).value.tail → (s.command c).destroyed = false) ∧
    ∀ {σ : Type} (I : Interpreter σ) (m : Machine σ) (line word : String) (rest : List String),
      m.workspace.store = s → m.depth < I.shell.maxDepth →
      (I.shell.rules.tokenize line).value = word :: rest →
      (s.find I.shell.root word).value = some c →
      (s.command c).destroyed = false ∧ ∃ m₁, LogsOnly (Interpreter.enter line m) m₁ ∧
        I.dispatch line m = Interpreter.leave line
          (Interpreter.guarded m.words
            (I.callAt I.dispatch callLimit c (word :: rest) m₁)) := by
  subst hs
  have hcleared := cleared_performAll sound_empty hops hspare halone (cleared_empty c)
  have hitems : ∀ r, c ∈ (performAll {} ops).itemsOf r →
      ((performAll {} ops).command c).destroyed = false := by
    intro r hmem
    cases hdead : ((performAll {} ops).command c).destroyed with
    | false => rfl
    | true => exact absurd hmem (hcleared hdead r)
  have hfind : ∀ p k, ((performAll {} ops).find p k).value = some c →
      ((performAll {} ops).command c).destroyed = false := by
    intro p k hfound
    obtain ⟨r, -, hmem⟩ := parent_iff.1 (find_eq_some hfound).1
    exact hitems r hmem
  refine ⟨hitems, hfind, fun top words hmem => ?_, fun I m line word rest hm hdepth hwords hc => ?_⟩
  · obtain ⟨p, k, hfound⟩ := exists_find_of_mem_descend hmem
    exact hfind p k hfound
  · refine ⟨hfind _ _ hc, ?_⟩
    rw [← hm] at hc
    exact I.dispatch_of_find hdepth hwords hc

/-- As long as there is one registry only, a command stands in no other. -/
theorem destroyedAlone_of_length {s : Store} {ops : List Operation} (hs : s.Sound)
    (hops : s.Admits ops) (h : (s.performAll ops).registries.length ≤ 1) (c : CommandId) :
    s.DestroyedAlone c ops := by
  induction ops generalizing s with
  | nil => trivial
  | cons op rest ih =>
    have hchanges := hs.changes hops.later
    have hfirst : ∀ r, c ∈ s.itemsOf r → r = ⟨0⟩ := by
      rintro ⟨i⟩ hmem
      have hi : i < _ := hchanges.hasRegistry (s.hasRegistry_of_mem_itemsOf hmem)
      simp only [RegistryId.mk.injEq]
      omega
    refine ⟨fun _ _ r q hr hq => ?_, ih (hs.of_changes (op.changes hs hops.1)) hops.2 h⟩
    rw [hfirst r hr, hfirst q hq]

/-- A command without a keyword and two others, of which `c` has a handler. -/
def trio : Store :=
  performAll {} [.create {}, .create { keyword := "p" },
    .create { keyword := "c", handler := some (.custom "c") }]

theorem sound_trio : trio.Sound := by
  have hempty : Reachable {} := Relation.ReflTransGen.refl
  have htop := hempty.perform (.create {}) (by decide)
  have hp := htop.perform (.create { keyword := "p" }) (by decide)
  exact (hp.perform (.create { keyword := "c", handler := some (.custom "c") }) (by decide)).sound

/-- The command `c` is registered under the first one. -/
theorem register_trio :
    (trio.register ⟨0⟩ ⟨2⟩).value = (true, (trio.furnish ⟨0⟩).enlist ⟨0⟩ ⟨2⟩) :=
  value_register_of_bare (ensureRegistry_of_none _ (by decide)) (by decide) (by decide)
    (by decide) (by decide) (by decide) (by decide)

/-- Both commands are registered under the first one, and `p` is unregistered again. -/
def visit : List Operation :=
  [.create {}, .create { keyword := "p" },
    .create { keyword := "c", handler := some (.custom "c") },
    .register ⟨0⟩ ⟨2⟩, .register ⟨0⟩ ⟨1⟩, .unregister ⟨0⟩ ⟨1⟩]

theorem performAll_visit :
    performAll {} visit =
      ((((trio.furnish ⟨0⟩).enlist ⟨0⟩ ⟨2⟩).enlist ⟨0⟩ ⟨1⟩).strike ⟨0⟩ 1).bury ⟨1⟩ := by
  change (((trio.register ⟨0⟩ ⟨2⟩).value.2.register ⟨0⟩ ⟨1⟩).value.2.unregister ⟨0⟩ ⟨1⟩).value.2 = _
  have hp : (((trio.furnish ⟨0⟩).enlist ⟨0⟩ ⟨2⟩).register ⟨0⟩ ⟨1⟩).value =
      (true, ((trio.furnish ⟨0⟩).enlist ⟨0⟩ ⟨2⟩).enlist ⟨0⟩ ⟨1⟩) :=
    value_register_of_bare (ensureRegistry_of_some _ (by decide)) (by decide) (by decide)
      (by decide) (by decide) (by decide) (by decide)
  rw [register_trio, hp, value_unregister]
  refine value_destroy_of_live (by decide) fun r hr => ?_
  cases hr

/-- What was unregistered is nowhere any more, and `c` is found and not destroyed. -/
theorem visit_live :
    Admits {} visit ∧ (∀ d, .destroy d ∉ visit) ∧
      (∀ c, DestroyedAlone {} c visit) ∧
      ((performAll {} visit).command ⟨1⟩).destroyed = true ∧
      (∀ r, ⟨1⟩ ∉ (performAll {} visit).itemsOf r) ∧
      ((performAll {} visit).find ⟨0⟩ "c").value = some ⟨2⟩ ∧
      ((performAll {} visit).command ⟨2⟩).destroyed = false := by
  have hops : Admits {} visit :=
    ⟨by decide, by decide, by decide, sound_trio.admits (by decide)⟩
  have hspare : ∀ d, .destroy d ∉ visit := by simp [visit]
  have halone : ∀ c, DestroyedAlone {} c visit := by
    refine destroyedAlone_of_length sound_empty hops ?_
    rw [performAll_visit]
    decide
  have hdead : ((performAll {} visit).command ⟨1⟩).destroyed = true := by
    rw [performAll_visit]
    decide
  have hfind : ((performAll {} visit).find ⟨0⟩ "c").value = some ⟨2⟩ := by
    rw [performAll_visit]
    decide
  obtain ⟨hitems, -⟩ := live_of_destroyedAlone hops hspare (halone ⟨1⟩) rfl
  obtain ⟨-, hfound, -⟩ := live_of_destroyedAlone hops hspare (halone ⟨2⟩) rfl
  refine ⟨hops, hspare, halone, hdead, fun r hmem => ?_, hfind, hfound _ _ hfind⟩
  rw [hitems r hmem] at hdead
  cases hdead

/-- The command `c` is registered under both others, and unregistered under `p`. -/
def loan : List Operation :=
  [.create {}, .create { keyword := "p" },
    .create { keyword := "c", handler := some (.custom "c") },
    .register ⟨0⟩ ⟨2⟩, .register ⟨1⟩ ⟨2⟩, .unregister ⟨1⟩ ⟨2⟩]

theorem performAll_loan :
    performAll {} loan =
      (((((trio.furnish ⟨0⟩).enlist ⟨0⟩ ⟨2⟩).furnish ⟨1⟩).enlist ⟨1⟩ ⟨2⟩).strike ⟨1⟩ 0).bury
        ⟨2⟩ := by
  change (((trio.register ⟨0⟩ ⟨2⟩).value.2.register ⟨1⟩ ⟨2⟩).value.2.unregister ⟨1⟩ ⟨2⟩).value.2 = _
  rw [register_trio, value_register_of_bare (ensureRegistry_of_none _ (by decide)) (by decide)
    (by decide) (by decide) (by decide) (by decide) (by decide), value_unregister]
  refine value_destroy_of_live (by decide) fun r hr => ?_
  cases hr

/-- An application whose handlers answer five, with the first command as its top. -/
def lending : Interpreter Unit where
  shell := { root := ⟨0⟩ }
  handlers _ _ := .done 5

/-- The application after the operations. -/
def lendingStart : Machine Unit where
  workspace :=
    { store := performAll {} loan
      disk := {}
      environment := {}
      application := () }
  journal := {}

/-- The first command still holds `c`, which is destroyed; the line `c` finds it, calls no
handler and is answered with nought. -/
theorem loan_found :
    Admits {} loan ∧ (∀ d, .destroy d ∉ loan) ∧
      ⟨2⟩ ∈ (performAll {} loan).subcommands ⟨0⟩ ∧
      ((performAll {} loan).command ⟨2⟩).destroyed = true ∧
      ((performAll {} loan).find ⟨0⟩ "c").value = some ⟨2⟩ ∧
      (lending.dispatch "c" lendingStart).1 = .ok 0 ∧
      lendingStart.since (lending.dispatch "c" lendingStart).2 =
        [.entered 1 "c", .left 1 "c" (.ok 0)] := by
  have hfind : ((performAll {} loan).find ⟨0⟩ "c").value = some ⟨2⟩ := by
    rw [performAll_loan]
    decide
  have hhandler : ((performAll {} loan).command ⟨2⟩).handler = none := by
    rw [performAll_loan]
    decide
  have hdepth : lendingStart.depth < lending.shell.maxDepth := by decide
  have hwords : (lending.shell.rules.tokenize "c").value = ["c"] := by decide +kernel
  obtain ⟨m₁, hm₁, hdispatch⟩ := lending.dispatch_of_find hdepth hwords hfind
  have hcall : lending.callAt lending.dispatch callLimit ⟨2⟩ ["c"] m₁ = (.ok 0, m₁) := by
    refine lending.callWith_of_none ?_
    rw [hm₁.store]
    exact hhandler
  refine ⟨⟨by decide, by decide, by decide, sound_trio.admits (by decide)⟩, by simp [loan], ?_, ?_,
    hfind, ?_, ?_⟩
  · rw [performAll_loan]
    decide
  · rw [performAll_loan]
    decide
  · rw [hdispatch, hcall]
    rfl
  · rw [hdispatch, hcall]
    exact Interpreter.since_answered hm₁ (.ok 0)

end Store

end CommandShell
