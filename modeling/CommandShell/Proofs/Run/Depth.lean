import CommandShell.Proofs.Run.Abort

/-!
# The depth of nested dispatches

The depth counts the dispatches that are under way.  Whatever the handlers do, a dispatch
leaves it as it was, no handler runs beyond the limit, and a dispatch that would go beyond
it does nothing but say so.  A dispatch fails by an abort, or because the handler that it called
failed and left none of its words; by an abort only, if handlers leave one.

These are facts about the grammar of events, since every dispatch follows it.
-/

namespace CommandShell

open Machine

variable {σ : Type}

/-! ## Reading the grammar -/

/-- Handlers are called at the depth of the activity or further down, within the limit. -/
theorem Activity.depth_of_called {limit : Int} {depth : Nat} {events : List Event}
    (h : Activity limit depth events) (hlimit : depth ≤ limit) {call : Call}
    (hcall : .called call ∈ events) : depth ≤ call.depth ∧ call.depth ≤ limit := by
  induction h with
  | idle => simp at hcall
  | remark text _ ih => exact ih hlimit (by simpa using hcall)
  | call inner outcome left hdepth _ _ ihinner ihrest =>
    simp only [List.mem_cons, List.mem_append, reduceCtorEq, Event.called.injEq, false_or] at hcall
    obtain rfl | hcall | hcall := hcall
    · omega
    · exact ihinner hlimit hcall
    · exact ihrest hlimit hcall
  | refused line _ _ ih => exact ih hlimit (by simpa using hcall)
  | answered line status _ _ ih => exact ih hlimit (by simpa using hcall)
  | dispatched line inner outcome left hbelow hdepth _ _ ihinner ihrest =>
    simp only [List.mem_cons, List.mem_append, reduceCtorEq, Event.called.injEq, false_or] at hcall
    obtain rfl | hcall | hcall := hcall
    · omega
    · have hdeeper := ihinner (by omega) hcall
      omega
    · exact ihrest hlimit hcall

section

variable {limit : Int} {depth : Nat} {line : String} {outcome : Except Fault Int}
  {events : List Event}

/-- The handlers that a dispatch calls run at least one level further down. -/
theorem Dispatched.depth_of_called (h : Dispatched limit depth line outcome events) {call : Call}
    (hcall : .called call ∈ events) : depth + 1 ≤ call.depth ∧ call.depth ≤ limit := by
  cases h with
  | refused hlimit => simp at hcall
  | answered status hlimit => simp at hcall
  | called first outcome left hlimit hdepth hinner =>
    simp only [List.mem_cons, List.mem_append, reduceCtorEq, Event.called.injEq, false_or,
      List.not_mem_nil, or_false] at hcall
    obtain rfl | hcall := hcall
    · omega
    · exact hinner.depth_of_called (by omega) hcall

/-- An ordinary failure of a handler gets out of a dispatch only as the lack of a word to name it
by. -/
theorem Dispatched.fault_cases {fault : Fault}
    (h : Dispatched limit depth line (.error fault) events) :
    fault.isAbort ∨ fault = .noWords ∧
      ∃ call ordinary, ordinary.isAbort = false ∧ .returned call (.error ordinary) [] ∈ events := by
  generalize houtcome : (.error fault : Except Fault Int) = outcome at h
  cases h with
  | refused hlimit => cases houtcome
  | answered status hlimit => cases houtcome
  | called call outcome left hlimit hdepth hinner =>
    cases outcome with
    | ok status => cases houtcome
    | error inner =>
      rw [settled] at houtcome
      split_ifs at houtcome with hinner hleft
      · cases houtcome
        exact .inl hinner
      · cases houtcome
        subst hleft
        exact .inr ⟨rfl, call, inner, by simpa using hinner, by simp⟩

end

/-! ## Beyond the limit -/

namespace Interpreter

variable (I : Interpreter σ)

/-- A dispatch beyond the limit is refused, and only the log takes notice. -/
theorem dispatch_of_le {m : Machine σ} (hlimit : I.shell.maxDepth ≤ m.depth) (line : String) :
    ∃ m₁, LogsOnly (enter line m) m₁ ∧
      I.dispatch line m = leave line (.ok Status.recursionLimit, m₁) := by
  obtain ⟨m₁, hm₁, heq⟩ := nested_eq line I.refuse m
  refine ⟨(I.refuse m₁).2, hm₁.trans (logsOnly_tell m₁ _), ?_⟩
  rw [I.dispatch_eq, if_neg (by omega), heq]
  rfl

theorem workspace_dispatch_of_le {m : Machine σ} (hlimit : I.shell.maxDepth ≤ m.depth)
    (line : String) :
    (I.dispatch line m).2.workspace =
      { m.workspace with disk := (I.dispatch line m).2.workspace.disk } := by
  obtain ⟨m₁, hm₁, heq⟩ := I.dispatch_of_le hlimit line
  rw [heq]
  exact hm₁.workspace

/-! ## Every dispatch -/

/-- If handlers leave a word, only aborts get out of a dispatch. -/
theorem contract_isAbort {I : Interpreter σ} (h : I.LeavesWord) :
    I.Contract (fun _ _ result => ∀ fault, result.1 = .error fault → fault.isAbort)
      fun _ _ => True where
  tooMany _ := trivial
  silent _ := trivial
  called _ _ _ _ _ _ _ := trivial
  answered _ _ _ _ _ _ := by
    rintro fault hfault
    cases hfault
  dispatched line m m₁ result m₂ _ _ _ _ _ hleaves := by
    intro fault hfault
    change settled result.2.words result.1 = .error fault at hfault
    cases hresult : result.1 with
    | ok status =>
      rw [hresult] at hfault
      cases hfault
    | error inner =>
      rw [hresult] at hfault
      cases hinner : inner.isAbort with
      | true =>
        rw [settled, if_pos hinner] at hfault
        cases hfault
        exact hinner
      | false =>
        rw [settled_of_word (hleaves h inner hresult) hinner] at hfault
        cases hfault

end Interpreter

/-- Two commands, one of which dispatches the other, which gives the run up. -/
def relay : Interpreter Unit where
  shell := { maxDepth := 2, root := ⟨0⟩ }
  handlers name _ :=
    if name = "stop" then .raise (.abort "stopped") else .dispatch "stop" Routine.ofExcept

/-- The two commands under the top. -/
def relayStart (depth : Nat) : Machine Unit where
  depth := depth
  workspace :=
    { store :=
        { commands :=
            [{ children := some (.owned ⟨0⟩) },
              { keyword := "stop", handler := some (.custom "stop") },
              { keyword := "relay", handler := some (.custom "relay") }]
          registries := [{ items := [⟨1⟩, ⟨2⟩] }] }
      disk := {}
      environment := {}
      application := () }
  journal := {}

theorem passesAborts_relay (name : String) (call : Call) :
    (relay.handlers name call).PassesAborts := by
  rw [relay]
  dsimp only
  split_ifs
  · exact .raise _
  · exact .dispatch _ (fun _ _ => rfl) Routine.passesAborts_ofExcept

theorem leavesWord_relay : relay.LeavesWord := by
  refine Interpreter.leavesWord_of_keepsWords fun name call => ?_
  rw [relay]
  dsimp only
  split_ifs
  · exact Routine.closed_keepsWords.raise _ trivial
  · exact Routine.closed_keepsWords.dispatchLine _

end CommandShell
