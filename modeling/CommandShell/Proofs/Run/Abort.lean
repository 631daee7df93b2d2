import CommandShell.Proofs.Run.Nesting

/-!
# How an abort unwinds a run

A dispatch turns an ordinary failure into a status and passes an abort on.  Whether an
abort that was raised far inside gets out thus depends on the handlers between: one that
goes on after a call has failed keeps it from its callers.  If none does, the abort ends
everything that is under way, one level after the other, and nothing else happens on its
way out.
-/

namespace CommandShell

open Machine

variable {σ ρ τ : Type}

/-! ## Outcomes and events -/

/-- The abort that an outcome is, if it is one. -/
def abortOf : Except Fault ρ → Option Fault
  | .ok _ => none
  | .error fault => if fault.isAbort then some fault else none

/-- The abort by which something comes to an end. -/
def Event.abort? : Event → Option Fault
  | .returned _ outcome _ => abortOf outcome
  | .left _ _ outcome => abortOf outcome
  | _ => none

theorem abortOf_eq_some {outcome : Except Fault ρ} {fault : Fault} :
    abortOf outcome = some fault ↔ outcome = .error fault ∧ fault.isAbort := by
  cases outcome with
  | ok r => simp [abortOf]
  | error fault' =>
    rw [abortOf]
    split_ifs with h <;> grind

theorem abortOf_settled (left : List String) (outcome : Except Fault Int) :
    abortOf (settled left outcome) = abortOf outcome := by
  cases outcome with
  | ok status => rfl
  | error fault =>
    rw [settled, abortOf]
    split_ifs with h
    · simp [abortOf, h]
    · rfl
    · rfl

/-- Once an abort ends something, it ends whatever ends from then on, nothing new begins,
and the whole ends with it. -/
def Unwinds (outcome : Except Fault ρ) : List Event → Prop
  | [] => True
  | event :: rest =>
    (∀ fault, event.abort? = some fault →
      abortOf outcome = some fault ∧ ∀ later ∈ rest, later.abort? = some fault) ∧
    Unwinds outcome rest

namespace Unwinds

/-- Without an abort at the end there was none before. -/
theorem abort_eq_none {outcome : Except Fault ρ} {events : List Event}
    (h : Unwinds outcome events) (houtcome : abortOf outcome = none) :
    ∀ event ∈ events, event.abort? = none := by
  induction events with
  | nil => simp
  | cons event rest ih =>
    refine List.forall_mem_cons.2 ⟨?_, ih h.2⟩
    cases habort : event.abort? with
    | none => rfl
    | some fault => simpa [houtcome] using (h.1 fault habort).1

theorem congr {outcome : Except Fault ρ} {outcome' : Except Fault τ} {events : List Event}
    (h : Unwinds outcome events) (houtcome : abortOf outcome' = abortOf outcome) :
    Unwinds outcome' events := by
  induction events with
  | nil => trivial
  | cons event rest ih => exact ⟨by simpa only [houtcome] using h.1, ih h.2⟩

theorem append {outcome : Except Fault ρ} {first second : List Event}
    (hfirst : ∀ event ∈ first, event.abort? = none) (hsecond : Unwinds outcome second) :
    Unwinds outcome (first ++ second) := by
  induction first with
  | nil => exact hsecond
  | cons event rest ih =>
    obtain ⟨hevent, hrest⟩ := List.forall_mem_cons.1 hfirst
    exact ⟨by simp [hevent], ih hrest⟩

/-- What is under way ends in the same way as what it did. -/
theorem concat {outcome : Except Fault ρ} {outcome' : Except Fault τ} {events : List Event}
    {event : Event} (h : Unwinds outcome events) (hevent : event.abort? = abortOf outcome)
    (houtcome : abortOf outcome' = abortOf outcome) : Unwinds outcome' (events ++ [event]) := by
  induction events with
  | nil => simp [Unwinds, hevent, houtcome]
  | cons first rest ih =>
    refine ⟨fun fault hfault => ?_, ih h.2⟩
    obtain ⟨habort, hlater⟩ := h.1 fault hfault
    refine ⟨houtcome.trans habort, fun later hmem => ?_⟩
    obtain hmem | rfl : later ∈ rest ∨ later = event := by simpa using hmem
    · exact hlater later hmem
    · exact hevent.trans habort

end Unwinds

/-! ## Routines -/

namespace Routine

/-- The routine ends with every abort of what it calls. -/
inductive PassesAborts : Routine σ ρ → Prop
  | done (r : ρ) : PassesAborts (done r)
  | raise (fault : Fault) : PassesAborts (raise fault)
  | look {next : Workspace σ → Routine σ ρ} (hnext : ∀ w, (next w).PassesAborts) :
    PassesAborts (look next)
  | put (w : Workspace σ) {next : Routine σ ρ} (hnext : next.PassesAborts) :
    PassesAborts (put w next)
  | rewrite (words : List String) {next : Routine σ ρ} (hnext : next.PassesAborts) :
    PassesAborts (rewrite words next)
  | tell (note : Note) {next : Routine σ ρ} (hnext : next.PassesAborts) :
    PassesAborts (tell note next)
  | logging (change : Journal.Change) {next : Except Fault Journal → Routine σ ρ}
    (hnext : ∀ outcome, (next outcome).PassesAborts) : PassesAborts (logging change next)
  | depth {next : Nat → Routine σ ρ} (hnext : ∀ n, (next n).PassesAborts) :
    PassesAborts (depth next)
  | remark (text : String) {next : Routine σ ρ} (hnext : next.PassesAborts) :
    PassesAborts (remark text next)
  | launch (program : Session σ LaunchReport) {next : Except Fault LaunchReport → Routine σ ρ}
    (hnext : ∀ outcome, (next outcome).PassesAborts) : PassesAborts (launch program next)
  | dispatch (line : String) {next : Except Fault Int → Routine σ ρ}
    (hpass : ∀ fault, fault.isAbort → next (.error fault) = Routine.raise fault)
    (hnext : ∀ outcome, (next outcome).PassesAborts) : PassesAborts (dispatch line next)
  | exec (c : CommandId) (args : List String)
    {next : Except Fault Int → List String → Routine σ ρ}
    (hpass : ∀ fault left, fault.isAbort → next (.error fault) left = Routine.raise fault)
    (hnext : ∀ outcome left, (next outcome left).PassesAborts) : PassesAborts (exec c args next)
  | delegate (c : CommandId) {next : Except Fault Int → Routine σ ρ}
    (hpass : ∀ fault, fault.isAbort → next (.error fault) = Routine.raise fault)
    (hnext : ∀ outcome, (next outcome).PassesAborts) : PassesAborts (delegate c next)

theorem PassesAborts.bind {x : Routine σ ρ} {f : ρ → Routine σ τ} (hx : x.PassesAborts)
    (hf : ∀ r, (f r).PassesAborts) : (x >>= f).PassesAborts := by
  change (x.bind f).PassesAborts
  have hraise : ∀ {y : Routine σ ρ} {fault : Fault},
      y = Routine.raise fault → y.bind f = Routine.raise fault := by
    intro y fault h
    rw [h, Routine.bind]
  induction hx with
  | done r => exact hf r
  | raise fault => exact .raise fault
  | look _ ih => exact .look ih
  | put w _ ih => exact .put w ih
  | rewrite words _ ih => exact .rewrite words ih
  | tell note _ ih => exact .tell note ih
  | logging change _ ih => exact .logging change ih
  | depth _ ih => exact .depth ih
  | remark text _ ih => exact .remark text ih
  | launch program _ ih => exact .launch program ih
  | dispatch line hpass _ ih => exact .dispatch line (fun fault h => hraise (hpass fault h)) ih
  | exec c args hpass _ ih =>
    exact .exec c args (fun fault left h => hraise (hpass fault left h)) ih
  | delegate c hpass _ ih => exact .delegate c (fun fault h => hraise (hpass fault h)) ih

/-- A routine goes on after a call; or it ends, because the call ended by an abort. -/
theorem unwinds_next {limit : Int} {re : Reentry σ} {m m₁ : Machine σ}
    {outcome : Except Fault Int} {next : Routine σ ρ} (hcall : Grows limit m m₁)
    (hunwinds : Unwinds outcome (m.since m₁))
    (hpass : ∀ fault, outcome = .error fault → fault.isAbort → next = raise fault)
    (hnext : Grows limit m₁ (next.run re m₁).2)
    (ih : Unwinds (next.run re m₁).1 (m₁.since (next.run re m₁).2)) :
    Unwinds (next.run re m₁).1 (m.since (next.run re m₁).2) := by
  rw [hcall.since_trans hnext]
  cases habort : abortOf outcome with
  | none => exact .append (hunwinds.abort_eq_none habort) ih
  | some fault =>
    obtain ⟨herror, hfault⟩ := abortOf_eq_some.1 habort
    have hend : next.run re m₁ = (.error fault, m₁) := by
      rw [hpass fault herror hfault, run]
    rw [hend, since_self, List.append_nil]
    exact hunwinds.congr (by rw [herror, abortOf, abortOf])

end Routine

/-- A call, or a dispatch, unwinds. -/
def Spec.unwinds : Spec σ := fun m result => Unwinds result.1 (m.since result.2)

/-- A routine that passes aborts on unwinds if what it calls does. -/
theorem Routine.unwinds_run {limit : Int} {depth : Nat} {re : Reentry σ}
    (hre : re.Meets depth (fun _ => (Spec.nests limit).and Spec.unwinds)
      ((Spec.nests limit).and Spec.unwinds))
    {x : Routine σ ρ} (hx : x.PassesAborts) (m : Machine σ) (hm : m.depth = depth) :
    Unwinds (x.run re m).1 (m.since (x.run re m).2) := by
  have hnests : re.Nests limit depth := hre.mono (fun _ _ _ h => h.1) (fun _ _ h => h.1)
  induction hx generalizing m with
  | done r => simp [run, Unwinds]
  | raise fault => simp [run, Unwinds]
  | look _ ih => exact ih _ m hm
  | put w _ ih => exact ih _ hm
  | rewrite words _ ih => exact ih (m.given words) hm
  | tell note _ ih =>
    have htell := logsOnly_tell m note
    rw [htell.since_eq]
    exact ih _ (htell.depth.trans hm)
  | logging change _ ih =>
    have hlog := logsOnly_changeLog m change
    rw [run_logging, hlog.since_eq]
    exact ih _ _ (hlog.depth.trans hm)
  | depth _ ih => exact ih _ m hm
  | remark text _ ih =>
    have hremark : Grows limit m (m.record (.remark text)) :=
      ⟨rfl, [.remark text], rfl, .remark text (.idle _)⟩
    have hsince : m.since (m.record (.remark text)) = [.remark text] := since_eq rfl
    rw [run, hremark.since_trans (grows_run hnests _ _ hm), hsince]
    exact .append (by simp [Event.abort?]) (ih _ hm)
  | launch program _ ih => exact ih _ _ hm
  | dispatch line hpass _ ih =>
    obtain ⟨hcall, hunwinds⟩ := hre.dispatch line m hm
    have hdepth := hcall.depth.trans hm
    rw [run_dispatch]
    exact unwinds_next hcall hunwinds (fun fault herror => herror ▸ hpass fault)
      (grows_run hnests _ _ hdepth) (ih _ _ hdepth)
  | exec c args hpass _ ih =>
    obtain ⟨hcall, hunwinds⟩ := hre.exec c args (m.given args) hm
    have hdepth := hcall.depth.trans hm
    rw [run_exec]
    exact unwinds_next (hcall.of_given.given m.words) hunwinds
      (fun fault herror => herror ▸ hpass fault _) (grows_run hnests _ _ hdepth) (ih _ _ _ hdepth)
  | delegate c hpass _ ih =>
    obtain ⟨hcall, hunwinds⟩ := hre.delegate c m hm
    have hdepth := hcall.depth.trans hm
    rw [run_delegate]
    exact unwinds_next (hcall.given m.words) hunwinds (fun fault herror => herror ▸ hpass fault)
      (grows_run hnests _ _ hdepth) (ih _ _ hdepth)

/-! ## Built-in commands -/

theorem Routine.passesAborts_ofExcept (outcome : Except Fault ρ) :
    (ofExcept outcome : Routine σ ρ).PassesAborts := by
  cases outcome with
  | ok r => exact .done r
  | error fault => exact .raise fault

/-- No step of a built-in command keeps an abort from its callers. -/
theorem Routine.closed_passesAborts :
    Closed (fun _ => True) fun {ρ : Type} (x : Routine σ ρ) => x.PassesAborts where
  admits _ _ := trivial
  done := .done
  raise fault _ := .raise fault
  look := .look
  put := .put
  tell := .tell
  logging change _ _ hnext := .logging change fun outcome => hnext outcome fun _ _ => trivial
  dispatchLine line := .dispatch line (fun _ _ => rfl) passesAborts_ofExcept
  handOver c := .delegate c (fun _ _ => rfl) passesAborts_ofExcept
  bind := PassesAborts.bind

/-! ## Dispatches -/

namespace Interpreter

variable {I : Interpreter σ}

/-- If the handlers of the application pass aborts on, calls and dispatches unwind. -/
theorem contract_unwinds (hpass : ∀ name call, (I.handlers name call).PassesAborts) :
    I.Contract (fun _ => Spec.unwinds) Spec.unwinds where
  tooMany m := by simp [Spec.unwinds, Unwinds]
  silent m := by simp [Spec.unwinds, Unwinds]
  called re m c handler args _ hre := by
    have hroutine : (I.routineFor (callOf m c handler args)).PassesAborts := by
      cases handler with
      | builtin b => exact Routine.closed_passesAborts.builtin ..
      | custom name => exact hpass ..
    have hrun := Routine.unwinds_run
      (hre.mono (fun _ _ _ h => ⟨h.1.grows, h.2⟩) (fun _ _ h => h)) hroutine
      (m.taking (callOf m c handler args)) rfl
    rw [Spec.unwinds, I.since_answer (hre.mono (fun _ _ _ h => h.1.grows) (fun _ _ h => h.1)),
      ← List.singleton_append]
    exact .append (by simp [Event.abort?]) (hrun.concat rfl rfl)
  answered line m m₁ status hm₁ _ := by
    rw [Spec.unwinds, since_answered hm₁]
    simp [Unwinds, Event.abort?, abortOf]
  dispatched line m m₁ result m₂ _ hm₁ hcall hresult hm₂ _ := by
    rw [Spec.unwinds, since_dispatched hm₁ (hcall.grows hm₁.depth) hm₂, ← List.singleton_append]
    exact .append (by simp [Event.abort?])
      (hresult.concat (abortOf_settled _ result.1) (abortOf_settled _ result.1))

end Interpreter

end CommandShell
