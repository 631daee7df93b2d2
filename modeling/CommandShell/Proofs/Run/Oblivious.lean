import CommandShell.Proofs.Run.Nesting

/-!
# What was shown and recorded before does not matter

Nothing that a handler or the interpreter does depends on what stands on the screen or in the
trace: both are only ever added to.  So a run from a state with more on the screen and more in
the trace does the same, and adds the same.  The only step of a routine that could look there
is a program that is launched, since it is handed the machine as a whole.
-/

namespace CommandShell

variable {σ ρ τ α β : Type}

/-! ## Machines -/

namespace Machine

/-- The state if this had been shown and recorded before everything else. -/
def after (shown : String) (past : List Event) (m : Machine σ) : Machine σ :=
  { m with screen := shown ++ m.screen, trace := m.trace ++ past }

variable (shown : String) (past : List Event) (m : Machine σ)

theorem record_after (event : Event) :
    (m.after shown past).record event = (m.record event).after shown past := rfl

theorem given_after (words : List String) :
    (m.after shown past).given words = (m.given words).after shown past := rfl

theorem deliver_after (delivery : Journal.Delivery) :
    (m.after shown past).deliver delivery = (m.deliver delivery).after shown past := by
  cases delivery with
  | screen line => simp [deliver, after, String.append_assoc]
  | file place line => rfl

theorem tell_after (note : Note) :
    (m.after shown past).tell note = (m.tell note).after shown past := by
  rw [tell, tell, show (m.after shown past).journal = m.journal from rfl]
  induction m.journal.deliveries note generalizing m with
  | nil => rfl
  | cons delivery rest ih => rw [List.foldl_cons, List.foldl_cons, deliver_after, ih]

theorem tellAll_after (notes : List Note) :
    (m.after shown past).tellAll notes = (m.tellAll notes).after shown past := by
  rw [tellAll, tellAll]
  induction notes generalizing m with
  | nil => rfl
  | cons note rest ih => rw [List.foldl_cons, List.foldl_cons, tell_after, ih]

theorem changeLog_after (change : Journal.Change) :
    (m.after shown past).changeLog change =
      ((m.changeLog change).1, (m.changeLog change).2.after shown past) := by
  cases change with
  | keep => rfl
  | restart path debug => rfl
  | obtain name level =>
    simp only [changeLog]
    rw [← tellAll_after]
    rfl
  | level level => rfl
  | screen enabled => rfl
  | file path =>
    simp only [changeLog, show (m.after shown past).journal = m.journal from rfl,
      show (m.after shown past).workspace = m.workspace from rfl]
    split <;> rfl

end Machine

/-! ## Sessions -/

namespace Session

/-- The session does not look at what was shown or recorded before. -/
def Oblivious (x : Session σ α) : Prop :=
  ∀ shown past m, x (m.after shown past) = ((x m).1, (x m).2.after shown past)

theorem oblivious_raise (fault : Fault) : Oblivious (raise fault : Session σ α) :=
  fun _ _ _ => rfl

theorem Oblivious.bind {x : Session σ α} {f : α → Session σ β} (hx : x.Oblivious)
    (hf : ∀ a, (f a).Oblivious) : (x.bind f).Oblivious := by
  intro shown past m
  rw [Session.bind, Session.bind, hx]
  obtain ⟨outcome, m₁⟩ := x m
  cases outcome with
  | ok a => exact hf a shown past m₁
  | error fault => rfl

theorem Oblivious.apart {x : Session σ α} (hx : x.Oblivious) : x.apart.Oblivious := by
  intro shown past m
  rw [Session.apart, Session.apart, hx]
  rfl

end Session

/-- Nothing that a routine may call looks there. -/
structure Reentry.Oblivious (re : Reentry σ) : Prop where
  dispatch : ∀ line, (re.dispatch line).Oblivious
  exec : ∀ c args, (re.exec c args).Oblivious
  delegate : ∀ c, (re.delegate c).Oblivious

/-! ## Routines -/

namespace Routine

/-- The routine does not look at what was shown or recorded before, unless what it calls
does. -/
def Oblivious (x : Routine σ ρ) : Prop := ∀ re : Reentry σ, re.Oblivious → (x.run re).Oblivious

theorem oblivious_done (r : ρ) : (done r : Routine σ ρ).Oblivious := fun _ _ _ _ _ => rfl

theorem oblivious_raise (fault : Fault) : (raise fault : Routine σ ρ).Oblivious :=
  fun _ _ _ _ _ => rfl

theorem oblivious_look {next : Workspace σ → Routine σ ρ} (h : ∀ w, (next w).Oblivious) :
    (look next).Oblivious := by
  intro re hre shown past m
  exact h m.workspace re hre shown past m

theorem oblivious_put (w : Workspace σ) {next : Routine σ ρ} (h : next.Oblivious) :
    (put w next).Oblivious := by
  intro re hre shown past m
  exact h re hre shown past { m with workspace := w }

theorem oblivious_rewrite (words : List String) {next : Routine σ ρ} (h : next.Oblivious) :
    (rewrite words next).Oblivious := by
  intro re hre shown past m
  exact h re hre shown past (m.given words)

theorem oblivious_tell (note : Note) {next : Routine σ ρ} (h : next.Oblivious) :
    (tell note next).Oblivious := by
  intro re hre shown past m
  simp only [run, Machine.tell_after]
  exact h re hre shown past (m.tell note)

theorem oblivious_logging (change : Journal.Change) {next : Except Fault Journal → Routine σ ρ}
    (h : ∀ outcome, (next outcome).Oblivious) : (logging change next).Oblivious := by
  intro re hre shown past m
  rw [run_logging, run_logging, Machine.changeLog_after]
  exact h _ re hre shown past (m.changeLog change).2

theorem oblivious_depth {next : Nat → Routine σ ρ} (h : ∀ n, (next n).Oblivious) :
    (depth next).Oblivious := by
  intro re hre shown past m
  exact h m.depth re hre shown past m

theorem oblivious_remark (text : String) {next : Routine σ ρ} (h : next.Oblivious) :
    (remark text next).Oblivious := by
  intro re hre shown past m
  exact h re hre shown past (m.record (.remark text))

theorem oblivious_dispatch (line : String) {next : Except Fault Int → Routine σ ρ}
    (h : ∀ outcome, (next outcome).Oblivious) : (dispatch line next).Oblivious := by
  intro re hre shown past m
  rw [run_dispatch, run_dispatch, hre.dispatch]
  exact h _ re hre shown past (re.dispatch line m).2

theorem oblivious_exec (c : CommandId) (args : List String)
    {next : Except Fault Int → List String → Routine σ ρ}
    (h : ∀ outcome left, (next outcome left).Oblivious) : (exec c args next).Oblivious := by
  intro re hre shown past m
  rw [run_exec, run_exec, Machine.given_after, hre.exec]
  exact h _ _ re hre shown past ((re.exec c args (m.given args)).2.given m.words)

theorem oblivious_delegate (c : CommandId) {next : Except Fault Int → Routine σ ρ}
    (h : ∀ outcome, (next outcome).Oblivious) : (delegate c next).Oblivious := by
  intro re hre shown past m
  rw [run_delegate, run_delegate, hre.delegate]
  exact h _ re hre shown past ((re.delegate c m).2.given m.words)

/-- A program that is launched must not look there itself. -/
theorem oblivious_launch {program : Session σ LaunchReport} (hprogram : program.Oblivious)
    {next : Except Fault LaunchReport → Routine σ ρ} (h : ∀ outcome, (next outcome).Oblivious) :
    (launch program next).Oblivious := by
  intro re hre shown past m
  simp only [run, hprogram.apart shown past m]
  exact h _ re hre shown past (program.apart m).2

/-- Every program that the routine may launch has the property. -/
def Launches (P : Session σ LaunchReport → Prop) : Routine σ ρ → Prop
  | done _ | raise _ => True
  | look next => ∀ w, (next w).Launches P
  | put _ next | rewrite _ next | tell _ next | remark _ next => next.Launches P
  | logging _ next => ∀ outcome, (next outcome).Launches P
  | depth next => ∀ n, (next n).Launches P
  | dispatch _ next | delegate _ next => ∀ outcome, (next outcome).Launches P
  | exec _ _ next => ∀ outcome left, (next outcome left).Launches P
  | launch program next => P program ∧ ∀ outcome, (next outcome).Launches P

/-- A routine does not look there, if the programs do not that it may launch. -/
theorem oblivious_of_launches {x : Routine σ ρ} (h : x.Launches Session.Oblivious) :
    x.Oblivious := by
  induction x with
  | done r => exact oblivious_done r
  | raise fault => exact oblivious_raise fault
  | look next ih => exact oblivious_look fun w => ih w (h w)
  | put w next ih => exact oblivious_put w (ih h)
  | rewrite words next ih => exact oblivious_rewrite words (ih h)
  | tell note next ih => exact oblivious_tell note (ih h)
  | logging change next ih => exact oblivious_logging change fun outcome => ih outcome (h outcome)
  | depth next ih => exact oblivious_depth fun n => ih n (h n)
  | remark text next ih => exact oblivious_remark text (ih h)
  | dispatch line next ih => exact oblivious_dispatch line fun outcome => ih outcome (h outcome)
  | exec c args next ih =>
    exact oblivious_exec c args fun outcome left => ih outcome left (h outcome left)
  | delegate c next ih => exact oblivious_delegate c fun outcome => ih outcome (h outcome)
  | launch program next ih => exact oblivious_launch h.1 fun outcome => ih outcome (h.2 outcome)

theorem Oblivious.bind {x : Routine σ ρ} {f : ρ → Routine σ τ} (hx : x.Oblivious)
    (hf : ∀ r, (f r).Oblivious) : (x >>= f).Oblivious := by
  intro re hre
  rw [show (x >>= f).run re = Session.bind (x.run re) fun r => (f r).run re from
    funext (run_bind re x f)]
  exact (hx re hre).bind fun r => hf r re hre

theorem oblivious_ofExcept (outcome : Except Fault ρ) :
    (ofExcept outcome : Routine σ ρ).Oblivious := by
  cases outcome with
  | ok r => exact oblivious_done r
  | error fault => exact oblivious_raise fault

/-- No step of a built-in command looks there. -/
theorem closed_oblivious :
    Closed (fun _ => True) fun {ρ : Type} (x : Routine σ ρ) => x.Oblivious where
  admits _ _ := trivial
  done := oblivious_done
  raise fault _ := oblivious_raise fault
  look := oblivious_look
  put := oblivious_put
  tell := oblivious_tell
  logging change _ _ hnext :=
    oblivious_logging change fun outcome => hnext outcome fun _ _ => trivial
  dispatchLine line := oblivious_dispatch line oblivious_ofExcept
  handOver c := oblivious_delegate c oblivious_ofExcept
  bind := Oblivious.bind

end Routine

/-! ## Calls and dispatches -/

namespace Interpreter

variable {I : Interpreter σ} (hI : ∀ name call, (I.handlers name call).Oblivious)

include hI

theorem oblivious_routineFor (call : Call) : (I.routineFor call).Oblivious := by
  rw [routineFor]
  split
  · exact Routine.closed_oblivious.builtin _ _ _
  · exact hI _ _

theorem oblivious_answer {re : Reentry σ} (hre : re.Oblivious) (call : Call) :
    (I.answer re call).Oblivious := by
  intro shown past m
  rw [answer, answer, Machine.taking, Machine.given_after, Machine.record_after,
    oblivious_routineFor hI call re hre]
  rfl

section

variable {dispatch : String → Session σ Int} {exec : CommandId → List String → Session σ Int}
  (hdispatch : ∀ line, (dispatch line).Oblivious)

include hdispatch

theorem oblivious_callWith_of (hexec : ∀ c args, (exec c args).Oblivious) (args : List String)
    (hhand : ∀ c, (I.handOver dispatch exec args c).Oblivious) (c : CommandId) :
    (I.callWith dispatch exec args c).Oblivious := by
  intro shown past m
  have hsame : ((m.after shown past).workspace.store.command c).handler =
      (m.workspace.store.command c).handler := rfl
  cases hhandler : (m.workspace.store.command c).handler with
  | none => rw [I.callWith_of_none hhandler, I.callWith_of_none (hsame.trans hhandler)]
  | some handler =>
    rw [I.callWith_of_some hhandler, I.callWith_of_some (hsame.trans hhandler)]
    exact oblivious_answer hI ⟨hdispatch, hexec, hhand⟩ (callOf m c handler args) shown past m

/-- The recursion of the calls that are handed over is on the words. -/
theorem oblivious_callWith (hexec : ∀ c args, (exec c args).Oblivious) (args : List String)
    (c : CommandId) : (I.callWith dispatch exec args c).Oblivious := by
  induction args generalizing c with
  | nil =>
    exact oblivious_callWith_of hI hdispatch hexec [] (fun _ => Session.oblivious_raise _) c
  | cons word rest ih => exact oblivious_callWith_of hI hdispatch hexec (word :: rest) ih c

theorem oblivious_callAt (nested : Nat) (c : CommandId) (args : List String) :
    (I.callAt dispatch nested c args).Oblivious := by
  induction nested generalizing c args with
  | zero => exact oblivious_callWith hI hdispatch (fun _ _ => Session.oblivious_raise _) args c
  | succ nested ih => exact oblivious_callWith hI hdispatch ih args c

omit hI hdispatch in
theorem guarded_after (own : List String) (outcome : Except Fault Int) (shown : String)
    (past : List Event) (m : Machine σ) :
    guarded own (outcome, m.after shown past) =
      ((guarded own (outcome, m)).1, (guarded own (outcome, m)).2.after shown past) := by
  cases outcome with
  | ok status => rfl
  | error fault =>
    rw [guarded, guarded]
    split_ifs
    · rfl
    · rw [show (m.after shown past).words = m.words from rfl]
      cases m.words with
      | nil => rfl
      | cons word rest =>
        dsimp only
        rw [Machine.given_after, Machine.tell_after]

theorem oblivious_runLine (line : String) : (I.runLine dispatch line).Oblivious := by
  intro shown past m
  have hstore : ∀ m : Machine σ, (m.after shown past).workspace = m.workspace := fun _ => rfl
  simp only [runLine, Machine.tellAll_after, hstore]
  cases (I.shell.rules.tokenize line).value with
  | nil => rw [Machine.tell_after]
  | cons word rest =>
    dsimp only
    cases ((m.tellAll (I.shell.rules.tokenize line).notes).workspace.store.find
        I.shell.root word).value with
    | none => rw [Machine.tell_after]
    | some c =>
      dsimp only
      rw [oblivious_callAt hI hdispatch, guarded_after]
      rfl

end

omit hI in
theorem oblivious_nested {line : String} {body : Session σ Int} (hbody : body.Oblivious) :
    (nested line body).Oblivious := by
  intro shown past m
  change leave line (body (((enter line m).after shown past).tell _)) = _
  rw [Machine.tell_after, hbody]
  rfl

omit hI in
theorem oblivious_refuse : I.refuse.Oblivious := by
  intro shown past m
  rw [refuse, refuse, Machine.tell_after]

theorem oblivious_dispatchWithin (room : Nat) (line : String) :
    (I.dispatchWithin room line).Oblivious := by
  induction room generalizing line with
  | zero => exact oblivious_nested oblivious_refuse
  | succ room ih => exact oblivious_nested (oblivious_runLine hI ih line)

/-- A dispatch does not look at what was shown or recorded before, if the handlers of the
application do not. -/
theorem oblivious_dispatch (line : String) : (I.dispatch line).Oblivious := by
  intro shown past m
  exact oblivious_dispatchWithin hI (I.room m.depth) line shown past m

end Interpreter

end CommandShell
