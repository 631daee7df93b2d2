import CommandShell.Proofs.Run.Answers
import CommandShell.Proofs.Run.Script

/-!
# Every dispatch comes to an end

Scripts may run themselves or each other, in circles and several times on every level, and the
tree may change while they do.  What ends all this is the depth of nested dispatches alone.  A
dispatch at the limit is refused; one below it calls a handler, which does finitely many things,
or reads a script, of which fewer and fewer lines are left.
-/

namespace CommandShell

open Machine Relation

variable {σ : Type}

/-! ## Nested dispatches -/

/-- How many dispatches begin here: one or none. -/
def Focus.dispatches : Focus σ → Nat
  | .dispatch _ => 1
  | _ => 0

/-- A dispatch is under way here. -/
def Frame.isLine : Frame σ → Bool
  | .line _ _ => true
  | _ => false

namespace Config

/-- How many dispatches are under way. -/
def underWay (cfg : Config σ) : Nat := cfg.stack.countP Frame.isLine

/-- How many dispatches are nested, with the one that is about to begin. -/
def chain (cfg : Config σ) : Nat := cfg.focus.dispatches + cfg.underWay

theorem underWay_of_line {cfg cfg' : Config σ} {frame : Frame σ}
    (hstack : cfg'.stack = frame :: cfg.stack) (hframe : frame.isLine = true) :
    cfg'.underWay = cfg.underWay + 1 := by
  simp [underWay, hstack, hframe]

theorem underWay_of_not_line {cfg cfg' : Config σ} {frame : Frame σ}
    (hstack : cfg'.stack = frame :: cfg.stack) (hframe : frame.isLine = false) :
    cfg'.underWay = cfg.underWay := by
  simp [underWay, hstack, hframe]

theorem chain_le (cfg : Config σ) : cfg.chain ≤ cfg.underWay + 1 := by
  rw [chain]
  cases cfg.focus <;> simp [Focus.dispatches, Nat.add_comm]

end Config

namespace Interpreter

variable {I : Interpreter σ} {limit : Option Nat} {cfg cfg' : Config σ}

/-- As many dispatches are under way as before, at the same depth. -/
def Stays (cfg cfg' : Config σ) : Prop :=
  cfg'.machine.depth = cfg.machine.depth ∧ cfg'.underWay = cfg.underWay

theorem Stays.push {frame : Frame σ} (hstack : cfg'.stack = frame :: cfg.stack)
    (hframe : frame.isLine = false) (hdepth : cfg'.machine.depth = cfg.machine.depth) :
    Stays cfg cfg' :=
  ⟨hdepth, Config.underWay_of_not_line hstack hframe⟩

theorem Stays.pop {frame : Frame σ} (hstack : cfg.stack = frame :: cfg'.stack)
    (hframe : frame.isLine = false) (hdepth : cfg'.machine.depth = cfg.machine.depth) :
    Stays cfg cfg' :=
  ⟨hdepth, (Config.underWay_of_not_line hstack hframe).symm⟩

theorem stays_calling (focus? : Option (Focus σ)) (nested : Option Nat) (args words : List String)
    (x : Routine σ Int) (next : Except Fault Int → List String → Routine σ Int)
    (stack : List (Frame σ)) (m : Machine σ) :
    Stays ⟨.routine nested args x, stack, m⟩ (.calling focus? nested args words next stack m) := by
  cases focus? with
  | none => exact ⟨rfl, rfl⟩
  | some focus => exact .push rfl rfl rfl

theorem stays_stepRoutine (nested : Option Nat) (args : List String) (stack : List (Frame σ))
    (m : Machine σ) (x : Routine σ Int) :
    Stays ⟨.routine nested args x, stack, m⟩ (stepRoutine nested args stack m x) := by
  cases x with
  | tell note next => exact ⟨(logsOnly_tell m note).depth, rfl⟩
  | logging change next => exact ⟨(logsOnly_changeLog m change).depth, rfl⟩
  | dispatch line next => exact .push rfl rfl rfl
  | exec c words next => exact stays_calling ..
  | delegate c next => exact stays_calling ..
  | done | raise | look | put | rewrite | depth | remark | launch => exact ⟨rfl, rfl⟩

theorem stays_stepAnswer {frame : Frame σ} (hframe : frame.isLine = false)
    (outcome : Except Fault Int) (stack : List (Frame σ)) (m : Machine σ) :
    Stays ⟨.answer outcome, frame :: stack, m⟩ (stepAnswer outcome stack m frame) := by
  cases frame with
  | line line own => cases hframe
  | handler call => exact .pop rfl rfl rfl
  | routine nested args next => exact .pop rfl rfl rfl
  | caller nested args own next => exact .pop rfl rfl rfl
  | script path place octets position soFar line =>
    cases outcome with
    | ok status => exact .pop rfl rfl (logsOnly_tell _ _).depth
    | error fault => exact .pop rfl rfl rfl

/-- A step begins a dispatch that is not refused, or ends one, or neither; the depth keeps
count. -/
theorem step_depth (h : I.step limit cfg = some cfg') :
    Stays cfg cfg' ∨
    (cfg.machine.depth < I.shell.maxDepth ∧ cfg'.machine.depth = cfg.machine.depth + 1 ∧
      cfg'.underWay = cfg.underWay + 1) ∨
    (cfg'.machine.depth = cfg.machine.depth - 1 ∧ cfg.underWay = cfg'.underWay + 1) := by
  refine step_cases ?dispatch ?call ?routine ?script ?answer h
  case dispatch =>
    intro line stack m
    have hopening := logsOnly_opening line m
    rw [stepDispatch]
    split_ifs with hlimit
    · have hresolve := (hopening.trans (I.logsOnly_resolve line _)).depth
      cases hfound : I.resolve line (opening line m) with
      | mk found m₁ =>
        rw [hfound] at hresolve
        cases found with
        | error status => exact .inl ⟨depth_leave hresolve _, rfl⟩
        | ok target => exact .inr (.inl ⟨hlimit, hresolve, Config.underWay_of_line rfl rfl⟩)
    · exact .inl ⟨depth_leave (hopening.trans (logsOnly_tell _ _)).depth _, rfl⟩
  case call =>
    intro nested c args stack m
    rw [stepCall]
    cases (m.workspace.store.command c).handler with
    | none => exact .inl ⟨rfl, rfl⟩
    | some handler => exact .inl (.push rfl rfl rfl)
  case routine =>
    intro nested args x stack m
    exact .inl (stays_stepRoutine nested args stack m x)
  case script =>
    intro path place octets position soFar stack m
    rw [stepScript]
    split
    · exact .inl ⟨rfl, rfl⟩
    · exact .inl ⟨(logsOnly_tell _ _).depth, rfl⟩
    · exact .inl (.push rfl rfl rfl)
  case answer =>
    intro outcome frame stack m
    cases hframe : frame.isLine with
    | false => exact .inl (stays_stepAnswer hframe outcome stack m)
    | true =>
      cases frame with
      | line line own =>
        obtain ⟨m₁, hm₁, heq⟩ := guarded_eq own (outcome, m)
        refine .inr (.inr ⟨?_, Config.underWay_of_line rfl rfl⟩)
        simp [stepAnswer, Config.answered, heq, leave, hm₁.depth]
      | handler | routine | caller | script => cases hframe

/-- The depth counts the dispatches that are under way, and as long as there is one it is
within the limit. -/
theorem depth_of_runs {line : String} {m : Machine σ} (h : I.Runs limit (.start line m) cfg) :
    cfg.machine.depth = m.depth + cfg.underWay ∧
      (0 < cfg.underWay → (cfg.machine.depth : Int) ≤ I.shell.maxDepth) := by
  induction h with
  | refl => exact ⟨rfl, fun h => absurd h (Nat.lt_irrefl 0)⟩
  | tail _ hstep ih =>
    obtain ⟨hdepth, hway⟩ | ⟨hlimit, hdepth, hway⟩ | ⟨hdepth, hway⟩ := step_depth hstep
    · rw [hdepth, hway]
      exact ih
    · omega
    · omega

/-- No chain of nested dispatches is longer than the limit, and one. -/
theorem chain_of_runs {line : String} {m : Machine σ} (h : I.Runs limit (.start line m) cfg) :
    (cfg.chain : Int) ≤ max I.shell.maxDepth 0 + 1 := by
  obtain ⟨hdepth, hlimit⟩ := depth_of_runs h
  have hchain := cfg.chain_le
  omega

/-! ## Every run -/

/-- **Every dispatch comes to an end.**  There is no limit but the one on the depth: direct
calls may nest as they like, and a script is read for as long as there is a line left.  If
handlers call commands by dispatching lines only, and every script keeps its octets while it
is being read, the run ends, with what the dispatch answers, and comes to this end from
wherever it stands; and at no time are more dispatches nested than the shell allows, and one. -/
theorem dispatch_terminates (I : Interpreter σ)
    (hplain : ∀ name call, (I.handlers name call).Plain) (line : String) (m : Machine σ)
    (hsteady : ∀ cfg, I.Runs none (.start line m) cfg → cfg.Steady) :
    I.Runs none (.start line m) (.answered (I.dispatch line m) []) ∧
    I.step none (.answered (I.dispatch line m) []) = none ∧
    ∀ cfg, I.Runs none (.start line m) cfg →
      I.Runs none cfg (.answered (I.dispatch line m) []) ∧
      (cfg.chain : Int) ≤ max I.shell.maxDepth 0 + 1 := by
  have hend := runs_dispatch_of_steady hplain line m hsteady
  exact ⟨hend, step_answered_nil, fun cfg h => ⟨hend.to_end h, chain_of_runs h⟩⟩

end Interpreter

/-- A script that runs itself twice. -/
def forkingStart : Machine Unit :=
  { loopingStart with
    workspace :=
      { loopingStart.workspace with
        disk :=
          { entries :=
              [(["f"], .file
                [115, 111, 117, 114, 99, 101, 32, 47, 102, 10,
                  115, 111, 117, 114, 99, 101, 32, 47, 102, 10])] } } }

/-- The script keeps its octets, runs on two levels, is refused on the third, and ends. -/
theorem forking_terminates :
    (∀ cfg, looping.Runs none (.start "source /f" forkingStart) cfg → cfg.Steady) ∧
    looping.Runs none (.start "source /f" forkingStart)
      (.answered (looping.dispatch "source /f" forkingStart) []) ∧
    ∀ cfg, looping.Runs none (.start "source /f" forkingStart) cfg → (cfg.chain : Int) ≤ 3 := by
  have hwithin : looping.within none (fun cfg => cfg.Steady) 200
      (.start "source /f" forkingStart) := by
    decide +kernel
  have hsteady : ∀ cfg, looping.Runs none (.start "source /f" forkingStart) cfg → cfg.Steady :=
    fun cfg hruns => of_decide_eq_true (Interpreter.forall_of_within 200 hwithin hruns)
  obtain ⟨hend, -, hall⟩ :=
    looping.dispatch_terminates (fun _ _ => trivial) "source /f" forkingStart hsteady
  exact ⟨hsteady, hend, fun cfg hruns => (hall cfg hruns).2⟩

end CommandShell
