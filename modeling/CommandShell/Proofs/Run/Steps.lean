import CommandShell.Proofs.Run.Nesting
import Mathlib.Logic.Relation

/-!
# Runs step by step

A dispatch is a function of the machine, which says nothing about what happens in between.  Here
its course is laid out in single steps.  What is being done is the *focus*; what remains to be
done once this is answered is a stack of *frames*, one for every dispatch, handler, routine and
script that is under way.

The steps may be taken with limits or without.  With a limit, direct calls nest as deeply as
it says, and a script is the routine that it always is, with its bound on the lines read.
Without one there is no bound on either, and a script is read for as long as there is a line
left.
-/

namespace CommandShell

open Machine Relation

variable {σ ρ τ : Type}

/-! ## Where a run stands -/

/-- What is being done. -/
inductive Focus (σ : Type) where
  /-- A line is to be dispatched. -/
  | dispatch (line : String)
  /-- A command is to be called with words, where so many direct calls may be nested. -/
  | call (nested : Option Nat) (c : CommandId) (args : List String)
  /-- The rest of a handler that was called with these words is carried out. -/
  | routine (nested : Option Nat) (args : List String) (x : Routine σ Int)
  /-- A script, which had these octets when it was opened, is read from a position on. -/
  | script (path : String) (place : Place) (octets : List UInt8) (position : Nat) (soFar : Int)
  /-- What was to be done is answered. -/
  | answer (outcome : Except Fault Int)

/-- What remains to be done with an answer. -/
inductive Frame (σ : Type) where
  /-- A handler with these words of its own dispatched a line, which called a command. -/
  | line (line : String) (own : List String)
  /-- A handler was called. -/
  | handler (call : Call)
  /-- The rest of a handler goes on with the answer of a dispatch. -/
  | routine (nested : Option Nat) (args : List String) (next : Except Fault Int → Routine σ Int)
  /-- The rest of a handler goes on with the answer of a call, and with what has become of the
  words; its own were these. -/
  | caller (nested : Option Nat) (args own : List String)
    (next : Except Fault Int → List String → Routine σ Int)
  /-- A script dispatched a line, and is read on from a position. -/
  | script (path : String) (place : Place) (octets : List UInt8) (position : Nat) (soFar : Int)
    (line : String)

/-- Where a run stands. -/
structure Config (σ : Type) where
  /-- What is being done. -/
  focus : Focus σ
  /-- What remains to be done, the next first. -/
  stack : List (Frame σ)
  /-- The state. -/
  machine : Machine σ

namespace Config

/-- A line is to be dispatched, and nothing else. -/
def start (line : String) (m : Machine σ) : Config σ := ⟨.dispatch line, [], m⟩

/-- Something is answered. -/
def answered (result : Except Fault Int × Machine σ) (stack : List (Frame σ)) : Config σ :=
  ⟨.answer result.1, stack, result.2⟩

/-- A routine calls what the focus says, if anything, with words, and goes on with the answer. -/
def calling (focus? : Option (Focus σ)) (nested : Option Nat) (args words : List String)
    (next : Except Fault Int → List String → Routine σ Int) (stack : List (Frame σ))
    (m : Machine σ) : Config σ :=
  match focus? with
  | none => ⟨.routine nested args (next (.error .tooManyCalls) words), stack, m⟩
  | some focus => ⟨focus, .caller nested args m.words next :: stack, m.given words⟩

end Config

/-! ## One step -/

namespace Focus

/-- What a direct call leads to: nothing, if too many are nested. -/
def exec : Option Nat → CommandId → List String → Option (Focus σ)
  | none, c, args => some (.call none c args)
  | some 0, _, _ => none
  | some (nested + 1), c, args => some (.call (some nested) c args)

/-- What a call that is handed over leads to: nothing, if no word is left. -/
def delegate (nested : Option Nat) : List String → CommandId → Option (Focus σ)
  | [], _ => none
  | _ :: rest, c => some (.call nested c rest)

end Focus

namespace Interpreter

variable (I : Interpreter σ)

/-- A line is dispatched: it is refused, answered at once, or calls a command. -/
def stepDispatch (limit : Option Nat) (line : String) (stack : List (Frame σ)) (m : Machine σ) :
    Config σ :=
  if m.depth < I.shell.maxDepth then
    match I.resolve line (opening line m) with
    | (.error status, m₁) => .answered (leave line (.ok status, m₁)) stack
    | (.ok (c, args), m₁) => ⟨.call limit c args, .line line m₁.words :: stack, m₁⟩
  else .answered (leave line (I.refuse (opening line m))) stack

/-- What a handler does: a script is read for as long as there is a line left, if there is no
limit. -/
def body (nested : Option Nat) (call : Call) (disk : Disk) : Focus σ :=
  match nested, call.handler, call.context, call.args with
  | none, .builtin .source, .interpreter, _ :: path :: _ =>
    match disk.openForReading (Path.clean path) with
    | .ok place => .script path place (disk.contents place) 0 Status.success
    | .error _ => .routine none call.args (I.routineFor call)
  | _, _, _, _ => .routine nested call.args (I.routineFor call)

/-- A command is called. -/
def stepCall (nested : Option Nat) (c : CommandId) (args : List String) (stack : List (Frame σ))
    (m : Machine σ) : Config σ :=
  match (m.workspace.store.command c).handler with
  | none => .answered (.ok 0, m) stack
  | some handler =>
    let call := callOf m c handler args
    ⟨I.body nested call m.workspace.disk, .handler call :: stack, m.taking call⟩

/-- A routine takes a step. -/
def stepRoutine (nested : Option Nat) (args : List String) (stack : List (Frame σ))
    (m : Machine σ) : Routine σ Int → Config σ
  | .done r => .answered (.ok r, m) stack
  | .raise fault => .answered (.error fault, m) stack
  | .look next => ⟨.routine nested args (next m.workspace), stack, m⟩
  | .put w next => ⟨.routine nested args next, stack, { m with workspace := w }⟩
  | .rewrite words next => ⟨.routine nested args next, stack, m.given words⟩
  | .tell note next => ⟨.routine nested args next, stack, m.tell note⟩
  | .logging change next =>
    let (outcome, m₁) := m.changeLog change
    ⟨.routine nested args (next (outcome.map fun _ => m₁.journal)), stack, m₁⟩
  | .depth next => ⟨.routine nested args (next m.depth), stack, m⟩
  | .remark text next => ⟨.routine nested args next, stack, m.record (.remark text)⟩
  | .dispatch line next => ⟨.dispatch line, .routine nested args next :: stack, m⟩
  | .exec c words next => .calling (Focus.exec nested c words) nested args words next stack m
  | .delegate c next =>
    .calling (Focus.delegate nested args c) nested args m.words (fun outcome _ => next outcome)
      stack m
  | .launch program next =>
    let (outcome, m₁) := program.apart m
    ⟨.routine nested args (next outcome), stack, m₁⟩

/-- The next line of a script is dispatched, if there is one that can be read. -/
def stepScript (path : String) (place : Place) (octets : List UInt8) (position : Nat)
    (soFar : Int) (stack : List (Frame σ)) (m : Machine σ) : Config σ :=
  match m.workspace.disk.nextLine place position with
  | .ended => .answered (.ok soFar, m) stack
  | .broken trouble => .answered (.ok soFar, m.tell (Routine.breakNote path trouble)) stack
  | .line line =>
    ⟨.dispatch (Text.lineText line),
      .script path place octets (position + line.length) soFar (Text.lineText line) :: stack, m⟩

/-- An answer is taken. -/
def stepAnswer (outcome : Except Fault Int) (stack : List (Frame σ)) (m : Machine σ) :
    Frame σ → Config σ
  | .line line own => .answered (leave line (guarded own (outcome, m))) stack
  | .handler call => .answered (outcome, m.returning call outcome) stack
  | .routine nested args next => ⟨.routine nested args (next outcome), stack, m⟩
  | .caller nested args own next =>
    ⟨.routine nested args (next outcome m.words), stack, m.given own⟩
  | .script path place octets position soFar line =>
    match outcome with
    | .ok status =>
      ⟨.script path place octets position (firstFailure soFar status), stack,
        m.tell (Routine.resultNote line status)⟩
    | .error fault => .answered (.error fault, m) stack

/-- One step, where so many direct calls may be nested, or without limits; none, if all is
answered. -/
def step (limit : Option Nat) : Config σ → Option (Config σ)
  | ⟨.dispatch line, stack, m⟩ => some (I.stepDispatch limit line stack m)
  | ⟨.call nested c args, stack, m⟩ => some (I.stepCall nested c args stack m)
  | ⟨.routine nested args x, stack, m⟩ => some (stepRoutine nested args stack m x)
  | ⟨.script path place octets position soFar, stack, m⟩ =>
    some (stepScript path place octets position soFar stack m)
  | ⟨.answer _, [], _⟩ => none
  | ⟨.answer outcome, frame :: stack, m⟩ => some (stepAnswer outcome stack m frame)

/-- A step is one of these.  What is known of each of them is known of every step. -/
@[elab_as_elim]
theorem step_cases {I : Interpreter σ} {limit : Option Nat} {P : Config σ → Config σ → Prop}
    (dispatch : ∀ line stack m,
      P ⟨.dispatch line, stack, m⟩ (I.stepDispatch limit line stack m))
    (call : ∀ nested c args stack m,
      P ⟨.call nested c args, stack, m⟩ (I.stepCall nested c args stack m))
    (routine : ∀ nested args x stack m,
      P ⟨.routine nested args x, stack, m⟩ (stepRoutine nested args stack m x))
    (script : ∀ path place octets position soFar stack m,
      P ⟨.script path place octets position soFar, stack, m⟩
        (stepScript path place octets position soFar stack m))
    (answer : ∀ outcome frame stack m,
      P ⟨.answer outcome, frame :: stack, m⟩ (stepAnswer outcome stack m frame))
    {cfg cfg' : Config σ} (h : I.step limit cfg = some cfg') : P cfg cfg' := by
  obtain ⟨focus, stack, m⟩ := cfg
  cases focus with
  | dispatch line =>
    obtain rfl := Option.some.inj h
    exact dispatch line stack m
  | call nested c args =>
    obtain rfl := Option.some.inj h
    exact call nested c args stack m
  | routine nested args x =>
    obtain rfl := Option.some.inj h
    exact routine nested args x stack m
  | script path place octets position soFar =>
    obtain rfl := Option.some.inj h
    exact script path place octets position soFar stack m
  | answer outcome =>
    cases stack with
    | nil => cases h
    | cons frame stack =>
      obtain rfl := Option.some.inj h
      exact answer outcome frame stack m

/-- Any number of steps. -/
def Runs (limit : Option Nat) : Config σ → Config σ → Prop :=
  ReflTransGen fun cfg cfg' => I.step limit cfg = some cfg'

theorem Runs.of_step {I : Interpreter σ} {limit : Option Nat} {cfg cfg' : Config σ}
    (h : I.step limit cfg = some cfg') : I.Runs limit cfg cfg' := .single h

/-- Something holds at all of the first steps, and then the run ends. -/
def within (limit : Option Nat) (P : Config σ → Bool) : Nat → Config σ → Bool
  | 0, _ => false
  | steps + 1, cfg => P cfg && (I.step limit cfg).all (within limit P steps)

/-- What holds at all steps until a run ends holds throughout. -/
theorem forall_of_within {I : Interpreter σ} {limit : Option Nat} {P : Config σ → Bool}
    (steps : Nat) {cfg cfg' : Config σ} (h : I.within limit P steps cfg)
    (hruns : I.Runs limit cfg cfg') : P cfg' := by
  induction steps generalizing cfg with
  | zero => cases h
  | succ steps ih =>
    rw [within, Bool.and_eq_true] at h
    obtain rfl | ⟨next, hstep, hrest⟩ := hruns.cases_head
    · exact h.1
    · rw [hstep] at h
      exact ih h.2 hrest

/-! ## The end of a run -/

section

variable {I : Interpreter σ} {limit : Option Nat} {start cfg : Config σ}
  {result result' : Except Fault Int × Machine σ}

theorem step_answered_nil : I.step limit (.answered result []) = none := rfl

/-- A run that ends at all comes to this end from wherever it stands. -/
theorem Runs.to_end (hend : I.Runs limit start (.answered result []))
    (h : I.Runs limit start cfg) : I.Runs limit cfg (.answered result []) := by
  have hunique : Relator.RightUnique fun cfg cfg' => I.step limit cfg = some cfg' :=
    fun _ _ _ hb hc => Option.some.inj (hb.symm.trans hc)
  obtain hlater | hearlier := ReflTransGen.total_of_right_unique hunique h hend
  · exact hlater
  · obtain heq | ⟨next, hstep, -⟩ := hearlier.cases_head
    · rw [heq]
      exact .refl
    · cases hstep

/-- A run ends in one way only. -/
theorem Runs.end_unique (h : I.Runs limit start (.answered result []))
    (h' : I.Runs limit start (.answered result' [])) : result' = result := by
  obtain heq | ⟨next, hstep, -⟩ := (h.to_end h').cases_head
  · obtain ⟨outcome, m⟩ := result
    obtain ⟨outcome', m'⟩ := result'
    cases heq
    rfl
  · cases hstep

end

end Interpreter

/-! ## Scripts that keep their octets -/

/-- The script that is being read, with the octets it was opened with. -/
def Focus.reading : Focus σ → List (Place × List UInt8)
  | .script _ place octets _ _ => [(place, octets)]
  | _ => []

/-- The script that will be read on, with the octets it was opened with. -/
def Frame.reading : Frame σ → List (Place × List UInt8)
  | .script _ place octets _ _ _ => [(place, octets)]
  | _ => []

namespace Config

/-- The scripts that are being read, with the octets they were opened with. -/
def readings (cfg : Config σ) : List (Place × List UInt8) :=
  cfg.focus.reading ++ cfg.stack.flatMap Frame.reading

/-- The scripts that are being read are as they were when they were opened. -/
def Steady (cfg : Config σ) : Prop :=
  ∀ reading ∈ cfg.readings, cfg.machine.workspace.disk.contents reading.1 = reading.2

instance (cfg : Config σ) : Decidable cfg.Steady :=
  inferInstanceAs (Decidable (∀ reading ∈ cfg.readings, _))

end Config

/-! ## Routines that make no direct calls -/

namespace Routine

/-- The routine calls commands by dispatching lines or by handing its own call over, and runs
nothing else. -/
def Plain : Routine σ ρ → Prop
  | .done _ => True
  | .raise _ => True
  | .look next => ∀ w, (next w).Plain
  | .put _ next => next.Plain
  | .rewrite _ next => next.Plain
  | .tell _ next => next.Plain
  | .logging _ next => ∀ outcome, (next outcome).Plain
  | .depth next => ∀ n, (next n).Plain
  | .remark _ next => next.Plain
  | .dispatch _ next => ∀ outcome, (next outcome).Plain
  | .exec _ _ _ => False
  | .delegate _ next => ∀ outcome, (next outcome).Plain
  | .launch _ _ => False

theorem plain_ofExcept (outcome : Except Fault ρ) : (ofExcept outcome : Routine σ ρ).Plain := by
  cases outcome <;> trivial

theorem Plain.bind {x : Routine σ ρ} {f : ρ → Routine σ τ} (hx : x.Plain)
    (hf : ∀ r, (f r).Plain) : (x >>= f).Plain := by
  change (x.bind f).Plain
  induction x with
  | done r => exact hf r
  | raise fault => trivial
  | look next ih => exact fun w => ih w (hx w)
  | put w next ih => exact ih hx
  | rewrite words next ih => exact ih hx
  | tell note next ih => exact ih hx
  | logging change next ih => exact fun outcome => ih outcome (hx outcome)
  | depth next ih => exact fun n => ih n (hx n)
  | remark text next ih => exact ih hx
  | dispatch line next ih => exact fun outcome => ih outcome (hx outcome)
  | exec c args next => exact hx.elim
  | delegate c next ih => exact fun outcome => ih outcome (hx outcome)
  | launch program next => exact hx.elim

theorem closed_plain : Closed (fun _ => True) fun {ρ : Type} (x : Routine σ ρ) => x.Plain where
  admits _ _ := trivial
  done _ := trivial
  raise _ _ := trivial
  look := id
  put _ := id
  tell _ := id
  logging _ _ _ hnext outcome := hnext outcome fun _ _ => trivial
  dispatchLine _ := plain_ofExcept
  handOver _ := plain_ofExcept
  bind := Plain.bind

end Routine

theorem Interpreter.plain_routineFor {I : Interpreter σ}
    (h : ∀ name call, (I.handlers name call).Plain) (call : Call) : (I.routineFor call).Plain := by
  rw [routineFor]
  cases call.handler with
  | builtin b => exact Routine.closed_plain.builtin I.shell call b
  | custom name => exact h name call

end CommandShell
