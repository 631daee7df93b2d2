import CommandShell.Proofs.Journal.Fileless
import CommandShell.Proofs.Run.Answers
import CommandShell.Proofs.Run.Script
import CommandShell.Proofs.Run.Typed

/-!
# How the log is set up does not matter

Almost everything that an interpreter does is noted in the log, and some commands change how the
log is set up.  Still nothing else depends on it.  Two runs that start with different levels,
with the screen on or off, in debug mode or not, take the same steps: at each of them the same
is being done, the same remains to be done, and the two states are twins.  What this takes is
that no handler looks at the log, and that no log file is opened, since what is written to a
file can be read again.
-/

namespace CommandShell

open Machine Relation

variable {σ ρ τ : Type}

/-! ## Routines that do not look at the log -/

/-- A program that does not look at the log: run on twins it answers the same and leaves twins,
unless it opens a log file. -/
def Session.Discreet {α : Type} (program : Session σ α) : Prop :=
  ∀ m m' : Machine σ, m.Twin m' → (program m).2.journal.Fileless → Twins (program m) (program m')

namespace Routine

/-- The routine does not look at the log: after a request to change it, all new states of the
log are the same to it. -/
def Discreet : Routine σ ρ → Prop
  | .done _ => True
  | .raise _ => True
  | .look next => ∀ w, (next w).Discreet
  | .put _ next => next.Discreet
  | .rewrite _ next => next.Discreet
  | .tell _ next => next.Discreet
  | .logging _ next =>
    (∀ j j', next (.ok j) = next (.ok j')) ∧ ∀ outcome, (next outcome).Discreet
  | .depth next => ∀ n, (next n).Discreet
  | .remark _ next => next.Discreet
  | .dispatch _ next => ∀ outcome, (next outcome).Discreet
  | .exec _ _ next => ∀ outcome left, (next outcome left).Discreet
  | .delegate _ next => ∀ outcome, (next outcome).Discreet
  | .launch program next => program.apart.Discreet ∧ ∀ outcome, (next outcome).Discreet

theorem discreet_ofExcept (outcome : Except Fault ρ) :
    (ofExcept outcome : Routine σ ρ).Discreet := by
  cases outcome <;> trivial

theorem Discreet.bind {x : Routine σ ρ} {f : ρ → Routine σ τ} (hx : x.Discreet)
    (hf : ∀ r, (f r).Discreet) : (x >>= f).Discreet := by
  change (x.bind f).Discreet
  induction x with
  | done r => exact hf r
  | raise fault => trivial
  | look next ih => exact fun w => ih w (hx w)
  | put w next ih => exact ih hx
  | rewrite words next ih => exact ih hx
  | tell note next ih => exact ih hx
  | logging change next ih =>
    exact ⟨fun j j' => congrArg (Routine.bind · f) (hx.1 j j'),
      fun outcome => ih outcome (hx.2 outcome)⟩
  | depth next ih => exact fun n => ih n (hx n)
  | remark text next ih => exact ih hx
  | dispatch line next ih => exact fun outcome => ih outcome (hx outcome)
  | exec c args next ih => exact fun outcome left => ih outcome left (hx outcome left)
  | delegate c next ih => exact fun outcome => ih outcome (hx outcome)
  | launch program next ih => exact ⟨hx.1, fun outcome => ih outcome (hx.2 outcome)⟩

/-- No step of a built-in command looks at the log. -/
theorem closed_discreet :
    Closed (fun _ => True) fun {ρ : Type} (x : Routine σ ρ) => x.Discreet where
  admits _ _ := trivial
  done _ := trivial
  raise _ _ := trivial
  look := id
  put _ := id
  tell _ := id
  logging _ _ hsame hnext := ⟨hsame, fun outcome => hnext outcome fun _ _ => trivial⟩
  dispatchLine _ := discreet_ofExcept
  handOver _ := discreet_ofExcept
  bind := Discreet.bind

end Routine

theorem Interpreter.discreet_routineFor {I : Interpreter σ}
    (h : ∀ name call, (I.handlers name call).Discreet) (call : Call) :
    (I.routineFor call).Discreet := by
  rw [routineFor]
  cases call.handler with
  | builtin b => exact Routine.closed_discreet.builtin I.shell call b
  | custom name => exact h name call

/-! ## Runs that stand at the same point -/

/-- What is being done does not look at the log. -/
def Focus.Discreet : Focus σ → Prop
  | .routine _ _ x => x.Discreet
  | _ => True

/-- What remains to be done does not look at the log. -/
def Frame.Discreet : Frame σ → Prop
  | .routine _ _ next => ∀ outcome, (next outcome).Discreet
  | .caller _ _ _ next => ∀ outcome left, (next outcome left).Discreet
  | _ => True

namespace Config

/-- Nothing that is being done, or remains to be done, looks at the log. -/
structure Discreet (cfg : Config σ) : Prop where
  focus : cfg.focus.Discreet
  stack : ∀ frame ∈ cfg.stack, frame.Discreet

/-- In two runs the same is being done and remains to be done, and the states are twins. -/
structure Twin (cfg cfg' : Config σ) : Prop where
  focus : cfg'.focus = cfg.focus
  stack : cfg'.stack = cfg.stack
  machine : cfg.machine.Twin cfg'.machine

theorem twin_answered {result result' : Except Fault Int × Machine σ} (h : Twins result result')
    (stack : List (Frame σ)) : Twin (answered result stack) (answered result' stack) :=
  ⟨congrArg Focus.answer h.value, rfl, h.twin⟩

theorem twin_calling {m m' : Machine σ} (h : m.Twin m') (focus? : Option (Focus σ))
    (nested : Option Nat) (args words : List String)
    (next : Except Fault Int → List String → Routine σ Int) (stack : List (Frame σ)) :
    Twin (calling focus? nested args words next stack m)
      (calling focus? nested args words next stack m') := by
  cases focus? with
  | none => exact ⟨rfl, rfl, h⟩
  | some focus =>
    refine ⟨rfl, ?_, h.given words⟩
    rw [calling, calling, h.words]

end Config

namespace Interpreter

variable {I : Interpreter σ} {limit : Option Nat} {m m' : Machine σ} {cfg cfg' : Config σ}

/-! ## One step -/

theorem twin_opening (h : m.Twin m') (line : String) :
    (opening line m).Twin (opening line m') := by
  have henter : (enter line m).Twin (enter line m') := by
    refine ⟨?_, h.words, h.workspace, ?_, h.fileless, h.fileless'⟩
    · simp [enter, h.depth]
    · simp [enter, h.depth, h.trace]
  unfold opening
  rw [h.depth]
  exact henter.tell _

theorem twins_leave {result result' : Except Fault Int × Machine σ} (h : Twins result result')
    (line : String) : Twins (leave line result) (leave line result') := by
  have htwin := h.twin
  refine ⟨h.value, ?_, htwin.words, htwin.workspace, ?_, htwin.fileless, htwin.fileless'⟩
  · simp [leave, htwin.depth]
  · simp [leave, htwin.depth, htwin.trace, h.value]

theorem twins_resolve (h : m.Twin m') (line : String) :
    Twins (I.resolve line m) (I.resolve line m') := by
  have hwords := h.tellAll (I.shell.rules.tokenize line).notes
  unfold resolve
  dsimp only
  cases (I.shell.rules.tokenize line).value with
  | nil => exact ⟨rfl, hwords.tell _⟩
  | cons word rest =>
    dsimp only
    rw [hwords.workspace]
    generalize (m.tellAll (I.shell.rules.tokenize line).notes).workspace.store.find
      I.shell.root word = found
    have hfound := hwords.tellAll found.notes
    cases found.value with
    | none => exact ⟨rfl, hfound.tell _⟩
    | some c => exact ⟨rfl, hfound⟩

theorem twins_guarded {result result' : Except Fault Int × Machine σ} (h : Twins result result')
    (own : List String) : Twins (guarded own result) (guarded own result') := by
  obtain ⟨outcome, m⟩ := result
  obtain ⟨outcome', m'⟩ := result'
  obtain ⟨hvalue, htwin⟩ := h
  obtain rfl : outcome = outcome' := hvalue.symm
  cases outcome with
  | ok status => exact ⟨rfl, htwin.given own⟩
  | error fault =>
    rw [guarded, guarded]
    split_ifs
    · exact ⟨rfl, htwin.given own⟩
    · rw [show m'.words = m.words from htwin.words]
      cases m.words with
      | nil => exact ⟨rfl, htwin.given own⟩
      | cons word rest => exact ⟨rfl, (htwin.given own).tell _⟩

theorem twin_stepDispatch (h : m.Twin m') (line : String) (stack : List (Frame σ)) :
    (I.stepDispatch limit line stack m).Twin (I.stepDispatch limit line stack m') := by
  have hopening := twin_opening h line
  unfold stepDispatch
  rw [h.depth]
  split_ifs
  · have hresolve := twins_resolve (I := I) hopening line
    generalize I.resolve line (opening line m) = result at hresolve
    generalize I.resolve line (opening line m') = result' at hresolve
    obtain ⟨found, m₁⟩ := result
    obtain ⟨found', m₁'⟩ := result'
    obtain ⟨hvalue, htwin⟩ := hresolve
    obtain rfl : found = found' := hvalue.symm
    cases found with
    | error status => exact Config.twin_answered (twins_leave (htwin.pair _) line) stack
    | ok target =>
      have hwords : m₁'.words = m₁.words := htwin.words
      exact ⟨rfl, congrArg (fun own => Frame.line line own :: stack) hwords, htwin⟩
  · exact Config.twin_answered (twins_leave ((hopening.tell _).pair _) line) stack

theorem twin_stepCall (h : m.Twin m') (nested : Option Nat) (c : CommandId) (args : List String)
    (stack : List (Frame σ)) :
    (I.stepCall nested c args stack m).Twin (I.stepCall nested c args stack m') := by
  have hcall : ∀ handler, callOf m' c handler args = callOf m c handler args := by
    intro handler
    rw [callOf, callOf, h.workspace, h.depth]
  unfold stepCall
  rw [h.workspace]
  cases (m.workspace.store.command c).handler with
  | none => exact Config.twin_answered (h.pair _) stack
  | some handler =>
    dsimp only
    rw [hcall]
    exact ⟨rfl, rfl, (h.given _).record _⟩

/-- A routine that does not look at the log takes the same step. -/
theorem twin_stepRoutine (h : m.Twin m') {x : Routine σ Int} (hx : x.Discreet)
    (nested : Option Nat) (args : List String) (stack : List (Frame σ))
    (hfileless : (stepRoutine nested args stack m x).machine.journal.Fileless) :
    (stepRoutine nested args stack m x).Twin (stepRoutine nested args stack m' x) := by
  cases x with
  | done r => exact Config.twin_answered (h.pair _) stack
  | raise fault => exact Config.twin_answered (h.pair _) stack
  | look next => exact ⟨by rw [stepRoutine, stepRoutine, h.workspace], rfl, h⟩
  | put w next => exact ⟨rfl, rfl, h.put w⟩
  | rewrite words next => exact ⟨rfl, rfl, h.given words⟩
  | tell note next => exact ⟨rfl, rfl, h.tell note⟩
  | logging change next =>
    have hchange := h.changeLog change hfileless
    refine ⟨?_, rfl, hchange.twin⟩
    simp only [stepRoutine, hchange.value]
    cases (m.changeLog change).1 with
    | ok _ => exact congrArg (Focus.routine nested args) (hx.1 _ _)
    | error fault => rfl
  | depth next => exact ⟨by rw [stepRoutine, stepRoutine, h.depth], rfl, h⟩
  | remark text next => exact ⟨rfl, rfl, h.record _⟩
  | dispatch line next => exact ⟨rfl, rfl, h⟩
  | exec c words next => exact Config.twin_calling h ..
  | delegate c next =>
    rw [stepRoutine, stepRoutine, h.words]
    exact Config.twin_calling h ..
  | launch program next =>
    have hprogram := hx.1 m m' h hfileless
    refine ⟨?_, rfl, hprogram.twin⟩
    simp only [stepRoutine, hprogram.value]

theorem twin_stepScript (h : m.Twin m') (path : String) (place : Place) (octets : List UInt8)
    (position : Nat) (soFar : Int) (stack : List (Frame σ)) :
    (stepScript path place octets position soFar stack m).Twin
      (stepScript path place octets position soFar stack m') := by
  unfold stepScript
  rw [h.workspace]
  split
  · exact Config.twin_answered (h.pair _) stack
  · exact Config.twin_answered ((h.tell _).pair _) stack
  · exact ⟨rfl, rfl, h⟩

theorem twin_stepAnswer (h : m.Twin m') (outcome : Except Fault Int) (frame : Frame σ)
    (stack : List (Frame σ)) :
    (stepAnswer outcome stack m frame).Twin (stepAnswer outcome stack m' frame) := by
  cases frame with
  | line line own =>
    exact Config.twin_answered (twins_leave (twins_guarded (h.pair _) own) line) stack
  | handler call =>
    rw [stepAnswer, stepAnswer, returning, returning, h.words]
    exact Config.twin_answered ((h.record _).pair _) stack
  | routine nested args next => exact ⟨rfl, rfl, h⟩
  | caller nested args own next => exact ⟨by rw [stepAnswer, stepAnswer, h.words], rfl, h.given own⟩
  | script path place octets position soFar line =>
    cases outcome with
    | ok status => exact ⟨rfl, rfl, h.tell _⟩
    | error fault => exact Config.twin_answered (h.pair _) stack

/-- From the same point, runs take the same step, unless it opens a log file. -/
theorem twin_step {next : Config σ} (hcfg : cfg.Discreet) (h : cfg.Twin cfg')
    (hstep : I.step limit cfg = some next) (hfileless : next.machine.journal.Fileless) :
    ∃ next', I.step limit cfg' = some next' ∧ next.Twin next' := by
  obtain ⟨focus', stack', m'⟩ := cfg'
  obtain ⟨hfocus, hstack, hm⟩ := h
  obtain rfl : focus' = cfg.focus := hfocus
  obtain rfl : stack' = cfg.stack := hstack
  revert hcfg hfileless hm
  refine step_cases ?dispatch ?call ?routine ?script ?answer hstep
  case dispatch =>
    intro line stack m _ _ hm
    exact ⟨_, rfl, twin_stepDispatch hm line stack⟩
  case call =>
    intro nested c args stack m _ _ hm
    exact ⟨_, rfl, twin_stepCall hm nested c args stack⟩
  case routine =>
    intro nested args x stack m hcfg hfileless hm
    exact ⟨_, rfl, twin_stepRoutine hm hcfg.focus nested args stack hfileless⟩
  case script =>
    intro path place octets position soFar stack m _ _ hm
    exact ⟨_, rfl, twin_stepScript hm path place octets position soFar stack⟩
  case answer =>
    intro outcome frame stack m _ _ hm
    exact ⟨_, rfl, twin_stepAnswer hm outcome frame stack⟩

/-! ## Nothing comes to look at the log -/

theorem discreet_calling {focus? : Option (Focus σ)} {nested : Option Nat}
    {args words : List String} {next : Except Fault Int → List String → Routine σ Int}
    {stack : List (Frame σ)} (hfocus : ∀ focus ∈ focus?, focus.Discreet)
    (hnext : ∀ outcome left, (next outcome left).Discreet)
    (hstack : ∀ frame ∈ stack, frame.Discreet) :
    (Config.calling focus? nested args words next stack m).Discreet := by
  cases focus? with
  | none => exact ⟨hnext _ _, hstack⟩
  | some focus => exact ⟨hfocus focus rfl, List.forall_mem_cons.2 ⟨hnext, hstack⟩⟩

theorem discreet_stepRoutine {x : Routine σ Int} (hx : x.Discreet) (nested : Option Nat)
    (args : List String) {stack : List (Frame σ)} (hstack : ∀ frame ∈ stack, frame.Discreet)
    (m : Machine σ) : (stepRoutine nested args stack m x).Discreet := by
  cases x with
  | done r => exact ⟨trivial, hstack⟩
  | raise fault => exact ⟨trivial, hstack⟩
  | look next => exact ⟨hx _, hstack⟩
  | put w next => exact ⟨hx, hstack⟩
  | rewrite words next => exact ⟨hx, hstack⟩
  | tell note next => exact ⟨hx, hstack⟩
  | logging change next => exact ⟨hx.2 _, hstack⟩
  | depth next => exact ⟨hx _, hstack⟩
  | remark text next => exact ⟨hx, hstack⟩
  | dispatch line next => exact ⟨trivial, List.forall_mem_cons.2 ⟨hx, hstack⟩⟩
  | exec c words next =>
    refine discreet_calling (fun focus hfocus => ?_) hx hstack
    rcases nested with _ | _ | nested <;> cases hfocus <;> trivial
  | delegate c next =>
    refine discreet_calling (fun focus hfocus => ?_) (fun outcome _ => hx outcome) hstack
    cases args <;> cases hfocus
    trivial
  | launch program next => exact ⟨hx.2 _, hstack⟩

theorem discreet_body (hI : ∀ name call, (I.handlers name call).Discreet) (nested : Option Nat)
    (call : Call) (disk : Disk) : (I.body nested call disk).Discreet := by
  have hroutine := discreet_routineFor hI call
  unfold body
  split
  · split
    · trivial
    · exact hroutine
  · exact hroutine

theorem discreet_stepAnswer {frame : Frame σ} (hframe : frame.Discreet)
    {stack : List (Frame σ)} (hstack : ∀ frame ∈ stack, frame.Discreet)
    (outcome : Except Fault Int) (m : Machine σ) :
    (stepAnswer outcome stack m frame).Discreet := by
  cases frame with
  | line line own => exact ⟨trivial, hstack⟩
  | handler call => exact ⟨trivial, hstack⟩
  | routine nested args next => exact ⟨hframe outcome, hstack⟩
  | caller nested args own next => exact ⟨hframe outcome m.words, hstack⟩
  | script path place octets position soFar line => cases outcome <;> exact ⟨trivial, hstack⟩

/-- One step keeps it so, if no handler looks at the log. -/
theorem discreet_step (hI : ∀ name call, (I.handlers name call).Discreet) {next : Config σ}
    (hcfg : cfg.Discreet) (hstep : I.step limit cfg = some next) : next.Discreet := by
  revert hcfg
  refine step_cases ?dispatch ?call ?routine ?script ?answer hstep
  case dispatch =>
    rintro line stack m ⟨-, hstack⟩
    unfold stepDispatch
    split_ifs
    · split
      · exact ⟨trivial, hstack⟩
      · exact ⟨trivial, List.forall_mem_cons.2 ⟨trivial, hstack⟩⟩
    · exact ⟨trivial, hstack⟩
  case call =>
    rintro nested c args stack m ⟨-, hstack⟩
    unfold stepCall
    split
    · exact ⟨trivial, hstack⟩
    · exact ⟨discreet_body hI .., List.forall_mem_cons.2 ⟨trivial, hstack⟩⟩
  case routine =>
    rintro nested args x stack m ⟨hx, hstack⟩
    exact discreet_stepRoutine hx nested args hstack m
  case script =>
    rintro path place octets position soFar stack m ⟨-, hstack⟩
    unfold stepScript
    split
    · exact ⟨trivial, hstack⟩
    · exact ⟨trivial, hstack⟩
    · exact ⟨trivial, List.forall_mem_cons.2 ⟨trivial, hstack⟩⟩
  case answer =>
    rintro outcome frame stack m ⟨-, hstack⟩
    obtain ⟨hframe, hrest⟩ := List.forall_mem_cons.1 hstack
    exact discreet_stepAnswer hframe hrest outcome m

/-! ## Every run -/

/-- Two runs that start at the same point stand at the same point after each step, if none of
the first opens a log file. -/
theorem Runs.twin (hI : ∀ name call, (I.handlers name call).Discreet) {start start' : Config σ}
    (hstart : start.Discreet) (h : start.Twin start')
    (hfileless : ∀ cfg, I.Runs limit start cfg → cfg.machine.journal.Fileless)
    (hruns : I.Runs limit start cfg) :
    cfg.Discreet ∧ ∃ cfg', I.Runs limit start' cfg' ∧ cfg.Twin cfg' := by
  induction hruns with
  | refl => exact ⟨hstart, start', .refl, h⟩
  | tail hbefore hstep ih =>
    obtain ⟨hdiscreet, cfg', hruns', htwin⟩ := ih
    obtain ⟨next', hstep', hnext⟩ :=
      twin_step hdiscreet htwin hstep (hfileless _ (hbefore.tail hstep))
    exact ⟨discreet_step hI hdiscreet hstep, next', hruns'.tail hstep', hnext⟩

variable (I) in
/-- No log file is open at any time while a line is dispatched. -/
def KeepsNoFile (line : String) (m : Machine σ) : Prop :=
  ∀ cfg, I.Runs (some callLimit) (.start line m) cfg → cfg.machine.journal.Fileless

/-- A dispatch comes to the same for twins. -/
theorem twins_dispatch (hI : ∀ name call, (I.handlers name call).Discreet) {line : String}
    (h : m.Twin m') (hfileless : I.KeepsNoFile line m) :
    Twins (I.dispatch line m) (I.dispatch line m') := by
  have hstart : (Config.start line m).Discreet := ⟨trivial, fun _ hmem => by cases hmem⟩
  have hsame : (Config.start line m).Twin (Config.start line m') := ⟨rfl, rfl, h⟩
  obtain ⟨-, ⟨focus, stack, m₁⟩, hruns, hfocus, hstack, htwin⟩ :=
    Runs.twin hI hstart hsame hfileless (I.runs_dispatch line m)
  obtain rfl : focus = .answer (I.dispatch line m).1 := hfocus
  obtain rfl : stack = [] := hstack
  have hend : ((I.dispatch line m).1, m₁) = I.dispatch line m' :=
    (I.runs_dispatch line m').end_unique hruns
  rw [← hend]
  exact ⟨rfl, htwin⟩

variable (I) in
/-- No log file is open at any time while lines are dispatched one after another. -/
def KeepsNoFiles : List String → Machine σ → Prop
  | [], _ => True
  | line :: rest, m =>
    I.KeepsNoFile line m ∧
      ∀ status m₁, I.dispatch line m = (.ok status, m₁) → KeepsNoFiles rest m₁

/-- So do many, one after another. -/
theorem twins_dispatchEach (hI : ∀ name call, (I.handlers name call).Discreet)
    (lines : List String) (h : m.Twin m') (hfileless : I.KeepsNoFiles lines m) :
    Twins (I.dispatchEach lines m) (I.dispatchEach lines m') := by
  induction lines generalizing m m' with
  | nil => exact h.pair _
  | cons line rest ih =>
    obtain ⟨hline, hrest⟩ := hfileless
    have htwins := twins_dispatch hI h hline
    cases hresult : I.dispatch line m with
    | mk outcome m₁ =>
      cases hresult' : I.dispatch line m' with
      | mk outcome' m₁' =>
        rw [hresult, hresult'] at htwins
        obtain rfl : outcome = outcome' := htwins.value.symm
        cases outcome with
        | error fault =>
          rw [dispatchEach_of_error hresult, dispatchEach_of_error hresult']
          exact htwins.twin.pair _
        | ok status =>
          obtain ⟨hvalue, htwin⟩ := ih htwins.twin (hrest status m₁ hresult)
          rw [dispatchEach_of_ok hresult, dispatchEach_of_ok hresult']
          exact ⟨congrArg (Except.map (status :: ·)) hvalue, htwin⟩

/-- **How the log is set up does not matter.**  If no handler looks at the log, and no log file
is open at any time, then dispatching lines from two states that differ in the log, and in what
is on the screen, gives the same statuses and leaves the same workspace, with the same tree,
output, files and flag to stop; the same calls were made, with the same words and in the same
order, and the depth is the same. -/
theorem dispatchEach_twin (I : Interpreter σ)
    (hI : ∀ name call, (I.handlers name call).Discreet) (lines : List String) (m m' : Machine σ)
    (h : m.Twin m') (hfileless : I.KeepsNoFiles lines m) :
    (I.dispatchEach lines m').1 = (I.dispatchEach lines m).1 ∧
    (I.dispatchEach lines m').2.workspace = (I.dispatchEach lines m).2.workspace ∧
    (I.dispatchEach lines m').2.calls = (I.dispatchEach lines m).2.calls ∧
    (I.dispatchEach lines m').2.trace = (I.dispatchEach lines m).2.trace ∧
    (I.dispatchEach lines m').2.depth = (I.dispatchEach lines m).2.depth := by
  obtain ⟨hvalue, htwin⟩ := twins_dispatchEach hI lines h hfileless
  have hcalls : (I.dispatchEach lines m').2.calls = (I.dispatchEach lines m).2.calls := by
    rw [calls, calls, htwin.trace]
  exact ⟨hvalue, htwin.workspace, hcalls, htwin.trace, htwin.depth⟩

end Interpreter

/-- The log of everything on the screen, in debug form and with colours. -/
def chatty : Journal where
  sinks := [⟨0, .screen true true⟩]
  loggers := [⟨Channel.interpreter, Level.verbose, [⟨0, .screen true true⟩]⟩]
  screen := some ⟨0, .screen true true⟩
  level := some Level.verbose
  debug := true
  nextSerial := 1

/-- A script that runs itself, and a line after it, come to the same if everything is logged on
the screen. -/
theorem looping_twin :
    loopingStart.Twin { loopingStart with journal := chatty } ∧
    looping.KeepsNoFiles ["source /f", "quit"] loopingStart ∧
    (looping.dispatchEach ["source /f", "quit"] { loopingStart with journal := chatty }).1 =
      (looping.dispatchEach ["source /f", "quit"] loopingStart).1 := by
  have htwin : loopingStart.Twin { loopingStart with journal := chatty } :=
    ⟨rfl, rfl, rfl, rfl, by decide, by decide⟩
  have hscript : looping.within (some callLimit) (fun cfg => cfg.machine.journal.Fileless) 100
      (.start "source /f" loopingStart) := by
    decide +kernel
  have hquit : looping.within (some callLimit) (fun cfg => cfg.machine.journal.Fileless) 100
      (.start "quit" (looping.dispatch "source /f" loopingStart).2) := by
    decide +kernel
  have hfileless : looping.KeepsNoFiles ["source /f", "quit"] loopingStart := by
    refine ⟨fun cfg hruns => of_decide_eq_true (Interpreter.forall_of_within 100 hscript hruns),
      fun status m₁ hresult => ⟨fun cfg hruns => ?_, fun _ _ _ => trivial⟩⟩
    rw [hresult] at hquit
    exact of_decide_eq_true (Interpreter.forall_of_within 100 hquit hruns)
  exact ⟨htwin, hfileless,
    (looping.dispatchEach_twin (fun _ _ => trivial) _ _ _ htwin hfileless).1⟩

end CommandShell
