import CommandShell.Proofs.Run.Builtins

/-!
# States that operations and lines lead to

An application works on the commands by the operations that the tree offers, and by dispatching
lines.  Lines may call handlers of the application, which do the same.  Of the built-in
commands, `alias` and `unalias` use these operations as well, and the others leave the tree
alone.  So whatever is dispatched, the tree is one that operations on commands lead to.
-/

namespace CommandShell

open Machine Relation

variable {σ : Type}

namespace Interpreter

/-- From this store on, every handler of the application leaves commands that operations lead to
from those it was called with, as long as whatever it calls itself does. -/
def Operates (I : Interpreter σ) (s : Store) : Prop :=
  ∀ t, s.Later t → ∀ name call, t.HasCommand call.command → ∀ re depth,
    Reentry.Keeps I.shell.maxDepth depth t.Later re →
      Routine.Triple re depth t.Later (· = t) (I.handlers name call) fun _ => t.Later

/-- The states that operations on commands and dispatched lines lead to, from a shell with
nothing but the built-in commands.  Between them, whatever does not concern the commands may
change. -/
inductive Attained (I : Interpreter σ) : Machine σ → Prop
  | fresh {m : Machine σ} (h : I.Fresh m) : Attained I m
  | operate {m m' : Machine σ} (h : Attained I m)
    (hlater : m.workspace.store.Later m'.workspace.store) : Attained I m'
  | dispatch {m : Machine σ} (h : Attained I m) (hI : I.Operates m.workspace.store)
    (line : String) : Attained I (I.dispatch line m).2

end Interpreter

/-! ## Built-in commands -/

namespace Store

variable {s t : Store}

theorem hasCommand_of_mem_subcommands {c d : CommandId} (h : d ∈ s.subcommands c) :
    s.HasCommand c := by
  obtain ⟨r, hr, -⟩ := parent_iff.1 h
  exact s.hasCommand_of_registryOf hr

theorem Sound.hasCommand_of_find (hs : s.Sound) {root c : CommandId} {keyword : String}
    (h : (s.find root keyword).value = some c) : s.HasCommand root ∧ s.HasCommand c := by
  obtain ⟨hmem, -⟩ := hs.find_eq_some_iff.1 h
  obtain ⟨r, -, hitem⟩ := parent_iff.1 hmem
  exact ⟨hasCommand_of_mem_subcommands hmem, hs.items hitem⟩

theorem hasCommand_makeAlias (s : Store) (c : CommandId) (keyword : String) :
    (s.makeAlias c keyword).2.HasCommand (s.makeAlias c keyword).1 := by
  simp [makeAlias, addCommand, HasCommand]

/-- An alias is made, registered, and destroyed if this is refused. -/
theorem Sound.later_afterAlias (hs : s.Sound) {root c : CommandId} (hroot : s.HasCommand root)
    (hc : s.HasCommand c) (keyword : String) : Later s (s.afterAlias root c keyword) := by
  have hmake : Later s (s.makeAlias c keyword).2 :=
    .single ⟨.makeAlias c keyword, by simpa [Operation.operands] using hc, rfl⟩
  have hchanges := hs.changes hmake
  have hroot' := hchanges.hasCommand hroot
  have hmade := s.hasCommand_makeAlias c keyword
  have hregister : Later (s.makeAlias c keyword).2
      ((s.makeAlias c keyword).2.register root (s.makeAlias c keyword).1).value.2 :=
    .single ⟨.register root _, by simpa [Operation.operands] using ⟨hroot', hmade⟩, rfl⟩
  rw [afterAlias]
  split_ifs
  · exact hmake.trans hregister
  · have hmade' := (changes_register hroot' (s.makeAlias c keyword).1).hasCommand hmade
    refine (hmake.trans hregister).tail ⟨.destroy (s.makeAlias c keyword).1, ?_, rfl⟩
    simpa [Operation.operands] using hmade'

/-- What `alias` and `unalias` do to the commands is made up of operations. -/
theorem bears_later (hs : s.Reachable) (root : CommandId) : Bears root s.Later where
  aliased ht hfound keyword := by
    have hsound := (hs.later ht).sound
    obtain ⟨hroot, hc⟩ := hsound.hasCommand_of_find hfound
    exact ReflTransGen.trans ht (hsound.later_afterAlias hroot hc keyword)
  unaliased ht hfound _ := by
    obtain ⟨hroot, hc⟩ := (hs.later ht).sound.hasCommand_of_find hfound
    exact ReflTransGen.tail ht
      ⟨.unregister root _, by simpa [Operation.operands] using ⟨hroot, hc⟩, rfl⟩

theorem hasCommand_of_handler {c : CommandId} {handler : Handler}
    (h : (s.command c).handler = some handler) : s.HasCommand c := by
  by_contra hnone
  rw [s.command_of_not_hasCommand hnone] at h
  cases h

end Store

/-! ## Lines -/

/-- From a store on, the call leads to commands that come about by operations. -/
def Spec.proceeds (s : Store) : Spec σ := fun m result =>
  s.Later m.workspace.store → m.workspace.store.Later result.2.workspace.store

namespace Interpreter

variable {I : Interpreter σ} {s : Store}

/-- Every call and every dispatch comes down to operations on commands, if the handlers of the
application do. -/
theorem contract_proceeds (hs : s.Reachable) (hI : I.Operates s) :
    I.Contract (fun _ => Spec.proceeds s) (Spec.proceeds s) where
  tooMany _ _ := .refl
  silent _ _ := .refl
  called re m c handler args hhandler hre hm := by
    have hre' : re.Keeps I.shell.maxDepth m.depth m.workspace.store.Later := by
      refine hre.mono (fun _ m' _ h => ⟨h.1.grows, fun hm' => ?_⟩)
        (fun m' _ h => ⟨h.1, fun hm' => ?_⟩)
      · exact ReflTransGen.trans hm' (h.2 (hm.trans hm'))
      · exact ReflTransGen.trans hm' (h.2 (hm.trans hm'))
    have hbears := Store.bears_later (hs.later hm) I.shell.root
    cases handler with
    | builtin b => exact keeps_answer (Builtin.triple_routine hre' hbears _ b) .refl
    | custom name =>
      exact keeps_answer (hI _ hm name _ (Store.hasCommand_of_handler hhandler) re _ hre') rfl
  answered line m m₁ status hm₁ _ _ := by
    have hstore : m₁.workspace.store = m.workspace.store := hm₁.store
    exact show m.workspace.store.Later m₁.workspace.store from hstore ▸ .refl
  dispatched line m m₁ result m₂ _ hm₁ _ hresult hm₂ _ hm := by
    have hstore : m₁.workspace.store = m.workspace.store := hm₁.store
    have hstore' : m₂.workspace.store = result.2.workspace.store := hm₂.store
    rw [Spec.proceeds, hstore] at hresult
    exact show m.workspace.store.Later m₂.workspace.store from hstore' ▸ hresult hm

/-- **Operations and lines lead to trees that operations alone lead to.** -/
theorem Attained.reachable {m : Machine σ} (h : I.Attained m) : m.workspace.store.Reachable := by
  induction h with
  | fresh h =>
    rw [h.store, value_registerBuiltins h.root]
    exact Store.reachable_fresh
  | operate _ hlater ih => exact ih.later hlater
  | dispatch _ hI line ih => exact ih.later ((contract_proceeds ih hI).dispatch line _ .refl)

/-- An application without commands of its own leaves them alone. -/
theorem operates_launch (shell : Shell) (s : Store) :
    (Launch.interpreter shell : Interpreter σ).Operates s :=
  fun _ _ _ _ _ _ _ _ => Routine.triple_pure fun _ ht => ht ▸ .refl

end Interpreter

end CommandShell
