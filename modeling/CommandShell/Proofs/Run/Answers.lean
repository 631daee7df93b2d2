import CommandShell.Proofs.Run.Steps

/-!
# A run ends with what the dispatch answers

Taken step by step, a dispatch comes to the answer that it has as a function of the machine.
With limits this holds whatever handlers do.  Without limits it holds if handlers call commands
by dispatching lines only and scripts keep their octets while they are read: then the limits
are never met.

The proof follows the recursion of the dispatch: the room that is left, the direct calls that
may still be nested, the words of a call that is handed over, and the steps of a routine or the
lines of a script.  In each of them what is called completes, whatever remains to be done.
-/

namespace CommandShell

open Machine Relation

variable {σ : Type}

namespace Interpreter

variable (I : Interpreter σ)

/-- If there are no limits, scripts keep their octets in all that follows. -/
def Steadily (limit : Option Nat) (cfg : Config σ) : Prop :=
  limit = none → ∀ cfg', I.Runs limit cfg cfg' → cfg'.Steady

/-- What the focus says is done, and answered, whatever remains to be done. -/
def Completes (limit : Option Nat) (focus : Focus σ) (m : Machine σ)
    (result : Except Fault Int × Machine σ) : Prop :=
  ∀ stack, I.Steadily limit ⟨focus, stack, m⟩ →
    I.Runs limit ⟨focus, stack, m⟩ (.answered result stack)

/-- A call at a depth is what the focus says, or is refused. -/
def Serves (limit : Option Nat) (depth : Nat) (focus? : Option (Focus σ))
    (session : Session σ Int) : Prop :=
  ∀ m, m.depth = depth →
    match focus? with
    | none => session m = (.error .tooManyCalls, m)
    | some focus => I.Completes limit focus m (session m)

/-- What a handler that was called with words may call at a depth is well nested and done step by
step.  Direct calls matter with limits only. -/
structure Offers (limit nested : Option Nat) (depth : Nat) (args : List String)
    (re : Reentry σ) : Prop where
  nests : re.Nests I.shell.maxDepth depth
  dispatch : ∀ line, I.Serves limit depth (some (.dispatch line)) (re.dispatch line)
  exec : limit ≠ none → ∀ c words,
    I.Serves limit depth (Focus.exec nested c words) (re.exec c words)
  delegate : ∀ c, I.Serves limit depth (Focus.delegate nested args c) (re.delegate c)

variable {I} {limit nested : Option Nat} {depth : Nat} {m m' : Machine σ} {cfg cfg' : Config σ}
  {result : Except Fault Int × Machine σ} {re : Reentry σ} {args : List String}

theorem Steadily.of_runs (h : I.Steadily limit cfg) (hruns : I.Runs limit cfg cfg') :
    I.Steadily limit cfg' :=
  fun hlimit cfg'' hlater => h hlimit cfg'' (hruns.trans hlater)

/-! ## Putting runs together -/

/-- What is done in one step, and then completely, is done completely. -/
theorem Completes.of_step {focus focus' : Focus σ} (h : I.Completes limit focus' m' result)
    (hstep : ∀ stack, I.step limit ⟨focus, stack, m⟩ = some ⟨focus', stack, m'⟩) :
    I.Completes limit focus m result := by
  intro stack hsteadily
  have hfirst := Runs.of_step (hstep stack)
  exact hfirst.trans (h stack (hsteadily.of_runs hfirst))

theorem completes_of_step {focus : Focus σ}
    (hstep : ∀ stack, I.step limit ⟨focus, stack, m⟩ = some (.answered result stack)) :
    I.Completes limit focus m result := fun stack _ => Runs.of_step (hstep stack)

/-- What is done by doing something else first, with a frame on the stack, is done if both
are: that which comes first, and the rest once it is answered. -/
theorem Completes.of_frame {focus focus' : Focus σ} {frame : Frame σ}
    {inner : Except Fault Int × Machine σ} (h : I.Completes limit focus' m' inner)
    (hstep : ∀ stack, I.step limit ⟨focus, stack, m⟩ = some ⟨focus', frame :: stack, m'⟩)
    (hrest : ∀ stack, I.Steadily limit (stepAnswer inner.1 stack inner.2 frame) →
      I.Runs limit (stepAnswer inner.1 stack inner.2 frame) (.answered result stack)) :
    I.Completes limit focus m result := by
  intro stack hsteadily
  have hfirst := Runs.of_step (hstep stack)
  have hinner := hfirst.trans (h (frame :: stack) (hsteadily.of_runs hfirst))
  have hanswer : I.Runs limit (.answered inner (frame :: stack))
      (stepAnswer inner.1 stack inner.2 frame) := Runs.of_step rfl
  have hall := hinner.trans hanswer
  exact hall.trans (hrest stack (hsteadily.of_runs hall))

/-- A routine that calls something goes on with the answer, and has its own words again. -/
theorem completes_calling {focus? : Option (Focus σ)} {session : Session σ Int}
    {x : Routine σ Int} {words : List String}
    {next : Except Fault Int → List String → Routine σ Int}
    (hserves : I.Serves limit depth focus? session) (hm : m.depth = depth)
    (hstep : ∀ stack, stepRoutine nested args stack m x =
      .calling focus? nested args words next stack m)
    (hnext : I.Completes limit
      (.routine nested args (next (session (m.given words)).1 (session (m.given words)).2.words))
      ((session (m.given words)).2.given m.words) result) :
    I.Completes limit (.routine nested args x) m result := by
  have hserves := hserves (m.given words) hm
  cases focus? with
  | none =>
    rw [hserves] at hnext
    exact hnext.of_step fun stack => congrArg some (hstep stack)
  | some focus => exact hserves.of_frame (fun stack => congrArg some (hstep stack)) hnext

/-! ## Routines and scripts -/

/-- A routine is carried out step by step if what it calls is.  The induction is on the
routine. -/
theorem completes_routine (hre : I.Offers limit nested depth args re) (x : Routine σ Int)
    (hx : limit = none → x.Plain) (m : Machine σ) (hm : m.depth = depth) :
    I.Completes limit (.routine nested args x) m (x.run re m) := by
  induction x generalizing m with
  | done r => exact completes_of_step fun _ => rfl
  | raise fault => exact completes_of_step fun _ => rfl
  | look next ih => exact (ih _ (fun h => hx h _) m hm).of_step fun _ => rfl
  | put w next ih =>
    have hrest := ih hx { m with workspace := w } hm
    exact hrest.of_step fun _ => rfl
  | rewrite words next ih =>
    have hrest := ih hx (m.given words) hm
    exact hrest.of_step fun _ => rfl
  | tell note next ih =>
    exact (ih hx _ ((logsOnly_tell m note).depth.trans hm)).of_step fun _ => rfl
  | logging change next ih =>
    rw [Routine.run_logging]
    exact (ih _ (fun h => hx h _) _ ((logsOnly_changeLog m change).depth.trans hm)).of_step
      fun _ => rfl
  | depth next ih => exact (ih _ (fun h => hx h _) m hm).of_step fun _ => rfl
  | remark text next ih =>
    have hrest := ih hx (m.record (.remark text)) hm
    exact hrest.of_step fun _ => rfl
  | dispatch line next ih =>
    have hdispatch : I.Completes limit (.dispatch line) m (re.dispatch line m) :=
      hre.dispatch line m hm
    have hdepth := (hre.nests.dispatch line m hm).depth.trans hm
    exact hdispatch.of_frame (fun _ => rfl) (ih _ (fun h => hx h _) _ hdepth)
  | exec c words next ih =>
    -- Without limits a routine makes no direct calls.
    have hlimit : limit ≠ none := fun h => hx h
    have hdepth := (hre.nests.exec c words (m.given words) hm).depth.trans hm
    exact completes_calling (hre.exec hlimit c words) hm (fun _ => rfl)
      (ih _ _ (fun h => absurd h hlimit) _ hdepth)
  | delegate c next ih =>
    have hdepth := (hre.nests.delegate c m hm).depth.trans hm
    have hrest :=
      ih (re.delegate c m).1 (fun h => hx h _) ((re.delegate c m).2.given m.words) hdepth
    have hstep : ∀ stack, stepRoutine nested args stack m (.delegate c next) =
        .calling (Focus.delegate nested args c) nested args m.words (fun outcome _ => next outcome)
          stack m := fun _ => rfl
    exact completes_calling (hre.delegate c) hm hstep hrest
  | launch program next ih =>
    have hlimit : limit ≠ none := fun h => hx h
    have hrest := ih (program.apart m).1 (fun h => absurd h hlimit) (program.apart m).2 hm
    exact hrest.of_step fun _ => rfl

theorem Steadily.contents_eq {path : String} {place : Place} {octets : List UInt8}
    {position : Nat} {soFar : Int} {stack : List (Frame σ)}
    (h : I.Steadily none ⟨.script path place octets position soFar, stack, m⟩) :
    m.workspace.disk.contents place = octets :=
  h rfl _ .refl (place, octets) List.mem_cons_self

/-- A script that keeps its octets is read to its end within the bound of its routine.  The
induction is on the bound, which the octets left to read stay below. -/
theorem completes_script (hre : I.Offers none nested depth args re) (path : String) (place : Place)
    (octets : List UInt8) (bound position : Nat) (soFar : Int)
    (hbound : (octets.drop position).length < bound) (m : Machine σ) (hm : m.depth = depth) :
    I.Completes none (.script path place octets position soFar) m
      ((Routine.follow path place bound position soFar).run re m) := by
  induction bound generalizing position soFar m with
  | zero => cases hbound
  | succ bound ih =>
    intro stack hsteadily
    cases hnext : m.workspace.disk.nextLine place position with
    | ended =>
      rw [Routine.run_follow_of_ended hnext]
      exact Runs.of_step (by rw [step, stepScript, hnext])
    | broken trouble =>
      rw [Routine.run_follow_of_broken hnext]
      exact Runs.of_step (by rw [step, stepScript, hnext])
    | line line =>
      rw [Routine.run_follow_of_line hnext]
      -- The line is dispatched first; what is left of the script is shorter by it.
      have hleft : (octets.drop (position + line.length)).length < bound := by
        have hline := Disk.length_of_nextLine hnext
        rw [hsteadily.contents_eq] at hline
        rw [List.length_drop] at hbound ⊢
        omega
      have hdepth := (hre.nests.dispatch (Text.lineText line) m hm).depth.trans hm
      refine Completes.of_frame (hre.dispatch _ m hm)
        (fun stack => by rw [step, stepScript, hnext]) (fun stack hrest => ?_) stack hsteadily
      generalize hresult : re.dispatch _ m = result at hdepth hrest ⊢
      obtain ⟨outcome, m₁⟩ := result
      cases outcome with
      | error fault =>
        rw [Routine.run_runLine_of_error hresult]
        exact .refl
      | ok status =>
        rw [Routine.run_runLine_of_ok hresult]
        exact ih _ _ hleft _ ((logsOnly_tell _ _).depth.trans hdepth) stack hrest

/-! ## Calls -/

/-- What a handler does is done step by step if what it calls is. -/
theorem completes_body (call : Call) (hre : I.Offers limit nested depth call.args re)
    (hplain : limit = none → (I.routineFor call).Plain) (hnested : nested = none → limit = none)
    (m : Machine σ) (hm : m.depth = depth) :
    I.Completes limit (I.body nested call m.workspace.disk) m
      ((I.routineFor call).run re m) := by
  have hroutine := completes_routine hre (I.routineFor call) hplain m hm
  unfold body
  split
  · next path _ hhandler hcontext hargs =>
    split
    · next place hopen =>
      have hsource : I.routineFor call = Routine.runScript path := by
        rw [routineFor, hhandler]
        dsimp only
        rw [Builtin.routine, hargs, hcontext]
        rfl
      obtain rfl := hnested rfl
      rw [hsource, Routine.run_runScript_of_ok hopen]
      refine completes_script hre path place _ _ 0 Status.success ?_ m hm
      rw [List.drop_zero, growthLimit]
      omega
    · exact hroutine
  · exact hroutine

section

variable (hplain : limit = none → ∀ name call, (I.handlers name call).Plain)

include hplain

/-- A call is done step by step if what it offers its handler is. -/
theorem completes_call {exec : CommandId → List String → Session σ Int}
    (hre : I.Offers limit nested depth args ⟨I.dispatch, exec, I.handOver I.dispatch exec args⟩)
    (hnested : nested = none → limit = none) (c : CommandId) :
    I.Serves limit depth (some (.call nested c args)) (I.callWith I.dispatch exec args c) := by
  intro m hm
  change I.Completes limit (.call nested c args) m (I.callWith I.dispatch exec args c m)
  cases hhandler : (m.workspace.store.command c).handler with
  | none =>
    rw [I.callWith_of_none hhandler]
    exact completes_of_step fun stack => by rw [step, stepCall, hhandler]
  | some handler =>
    rw [I.callWith_of_some hhandler]
    have hbody := completes_body (callOf m c handler args) hre
      (fun hlimit => plain_routineFor (hplain hlimit) _) hnested
      (m.taking (callOf m c handler args)) hm
    refine hbody.of_frame (fun stack => by rw [step, stepCall, hhandler]; rfl) fun stack _ => ?_
    exact .refl

variable (hdispatch : ∀ line, I.Serves limit depth (some (.dispatch line)) (I.dispatch line))

include hdispatch

/-- A call is done step by step if the dispatches and the direct calls within are.  The
induction is on the words, for calls that are handed over. -/
theorem completes_callWith {exec : CommandId → List String → Session σ Int}
    (hgrows : ∀ c args m, m.depth = depth → Grows I.shell.maxDepth m (exec c args m).2)
    (hexec : limit ≠ none → ∀ c words,
      I.Serves limit depth (Focus.exec nested c words) (exec c words))
    (hnested : nested = none → limit = none) (args : List String) (c : CommandId) :
    I.Serves limit depth (some (.call nested c args)) (I.callWith I.dispatch exec args c) := by
  have hnests := I.nests_offered (fun line m _ => I.isDispatch_dispatch line m) hgrows
  induction args generalizing c with
  | nil =>
    exact completes_call hplain ⟨hnests [], hdispatch, hexec, fun _ _ _ => rfl⟩ hnested c
  | cons word rest ih =>
    exact completes_call hplain ⟨hnests (word :: rest), hdispatch, hexec, ih⟩ hnested c

/-- Calls are done step by step if dispatches are.  The induction is on the direct calls that
may be nested; without limits there are none. -/
theorem completes_callAt (more : Nat) (nested : Option Nat) (hnested : nested = none → limit = none)
    (hlimit : limit ≠ none → nested = some more) (c : CommandId) (args : List String) :
    I.Serves limit depth (some (.call nested c args)) (I.callAt I.dispatch more c args) := by
  induction more generalizing nested c args with
  | zero =>
    refine completes_callWith hplain hdispatch (fun _ _ m _ => .refl _ m)
      (fun hlimit' c words m hm => ?_) hnested args c
    rw [hlimit hlimit']
    rfl
  | succ more ih =>
    refine completes_callWith hplain hdispatch (fun c args m hm => ?_)
      (fun hlimit' c words => ?_) hnested args c
    · exact (I.contract_trivial.callAt (fun line m _ => ⟨I.isDispatch_dispatch line m, trivial⟩)
        more c args m hm).1.grows hm
    · rw [hlimit hlimit']
      exact ih (some more) (fun h => by cases h) (fun _ => rfl) c words

end

/-! ## Dispatches -/

/-- The recursion of dispatches is on the room that is left. -/
theorem completes_dispatch (hplain : limit = none → ∀ name call, (I.handlers name call).Plain)
    (hlimit : limit ≠ none → limit = some callLimit) (room : Nat) (line : String) (m : Machine σ)
    (hroom : I.room m.depth = room) :
    I.Completes limit (.dispatch line) m (I.dispatch line m) := by
  induction room generalizing line m with
  | zero =>
    have hfull : ¬ m.depth < I.shell.maxDepth := by
      simp only [Interpreter.room] at hroom
      omega
    rw [I.dispatch_eq, if_neg hfull, nested_eq_leave]
    exact completes_of_step fun stack => by rw [step, stepDispatch, if_neg hfull]
  | succ room ih =>
    have hfree : m.depth < I.shell.maxDepth ∧ I.room (m.depth + 1) = room := by
      simp only [Interpreter.room] at hroom ⊢
      omega
    rw [I.dispatch_eq, if_pos hfree.1, nested_eq_leave, runLine_eq]
    have hdepth := ((logsOnly_opening line m).trans (I.logsOnly_resolve line _)).depth
    cases hresolve : I.resolve line (opening line m) with
    | mk found m₁ =>
      rw [hresolve] at hdepth
      cases found with
      | error status =>
        exact completes_of_step fun stack => by rw [step, stepDispatch, if_pos hfree.1, hresolve]
      | ok target =>
        obtain ⟨c, args⟩ := target
        have hdispatch : ∀ line,
            I.Serves limit (m.depth + 1) (some (.dispatch line)) (I.dispatch line) :=
          fun line m' hm' => ih line m' (hm' ▸ hfree.2)
        have hcall := completes_callAt hplain hdispatch callLimit limit id hlimit c args m₁ hdepth
        refine Completes.of_frame hcall
          (fun stack => by rw [step, stepDispatch, if_pos hfree.1, hresolve]) fun stack _ => ?_
        exact .refl

/-- A run with limits ends with what the dispatch answers. -/
theorem runs_dispatch (I : Interpreter σ) (line : String) (m : Machine σ) :
    I.Runs (some callLimit) (.start line m) (.answered (I.dispatch line m) []) :=
  completes_dispatch (fun h => by cases h) (fun _ => rfl) _ line m rfl [] (fun h => by cases h)

/-- One without does so too, if it makes no direct calls and scripts keep their octets. -/
theorem runs_dispatch_of_steady (hplain : ∀ name call, (I.handlers name call).Plain)
    (line : String) (m : Machine σ)
    (hsteady : ∀ cfg, I.Runs none (.start line m) cfg → cfg.Steady) :
    I.Runs none (.start line m) (.answered (I.dispatch line m) []) :=
  completes_dispatch (fun _ => hplain) (fun h => (h rfl).elim) _ line m rfl [] fun _ => hsteady

end Interpreter

end CommandShell
