import CommandShell.Proofs.Run.Composure
import CommandShell.Proofs.Run.Typed

/-!
# Conversations

At a console the shell takes turns with its user: a line is typed, and is dispatched.  A line
that is given up counts as an empty one, which calls nothing.  The conversation is over once
the user ends the input, or as soon as a line leaves the shell stopped.  What is typed after
that is not looked at.

A dispatch that fails ends the loop.  Where the handlers do not abort, and leave a word when they
fail, every dispatch answers.  Either way it comes back to the depth where it began.  So each turn
begins at the depth of the loop, and what happens during a conversation is what the dispatches of
its lines do, one after another.
-/

namespace CommandShell

open Machine

variable {σ : Type}

/-- A line that is to be dispatched, and the state in which it is. -/
structure Turn (σ : Type) where
  /-- The line. -/
  line : String
  /-- The state before. -/
  before : Machine σ

namespace Interpreter

variable {I : Interpreter σ} {m m' : Machine σ} {t : Turn σ}

variable (I) in
/-- What comes of a turn. -/
def outcome (t : Turn σ) : Except Fault Int × Machine σ :=
  I.dispatch t.line t.before

variable (I) in
/-- The shell is stopped after the turn. -/
def Stops (t : Turn σ) : Prop :=
  (I.outcome t).2.workspace.stopped = true

instance (t : Turn σ) : Decidable (I.Stops t) :=
  inferInstanceAs (Decidable ((I.outcome t).2.workspace.stopped = true))

variable (I) in
/-- The turn is answered, and the shell is not stopped after it. -/
def Continues (t : Turn σ) : Prop :=
  (∃ status, (I.outcome t).1 = .ok status) ∧ ¬ I.Stops t

/-- The turn that a line is given.  It is noted first. -/
def turnFor (line : String) (m : Machine σ) : Turn σ :=
  ⟨line, m.tell (Routine.lineNote line)⟩

variable (I) in
/-- The state after a turn.  What came of it is noted. -/
def after (t : Turn σ) : Machine σ :=
  match I.outcome t with
  | (.ok status, m) => m.tell (Routine.statusNote t.line status)
  | (.error _, m) => m

variable (I) in
/-- The turns for what is typed before the input ends, whether the shell is stopped or not. -/
def turns : Machine σ → List Input → List (Turn σ)
  | _, [] => []
  | m, input :: rest =>
    match input.line? with
    | none => []
    | some line => turnFor line m :: turns (I.after (turnFor line m)) rest

theorem turns_of_line {input : Input} {line : String} (h : input.line? = some line)
    (m : Machine σ) (rest : List Input) :
    I.turns m (input :: rest) = turnFor line m :: I.turns (I.after (turnFor line m)) rest := by
  rw [turns, h]

theorem logsOnly_after (t : Turn σ) : LogsOnly (I.outcome t).2 (I.after t) := by
  rw [after]
  cases I.outcome t with
  | mk result m =>
    cases result with
    | ok status => exact logsOnly_tell m _
    | error fault => exact .refl m

theorem stopped_after (t : Turn σ) : (I.after t).workspace.stopped = true ↔ I.Stops t := by
  rw [Stops, (logsOnly_after t).stopped]

/-! ## Turn by turn -/

variable (I) in
/-- A conversation: what was taken of the input, the turns, how it ended, and the state at the
end. -/
inductive Conversed :
    Machine σ → List Input → List (Turn σ) → Except Fault Unit → Machine σ → Prop
  | stopped {m : Machine σ} (h : m.workspace.stopped = true) : Conversed m [] [] (.ok ()) m
  | ended {m : Machine σ} (h : m.workspace.stopped = false) :
    Conversed m [.endOfInput] [] (.ok ()) (m.tell Routine.endNote)
  | failed {m : Machine σ} {input : Input} {line : String} {fault : Fault}
    (h : m.workspace.stopped = false) (hinput : input.line? = some line)
    (hfault : (I.outcome (turnFor line m)).1 = .error fault) :
    Conversed m [input] [turnFor line m] (.error fault) (I.after (turnFor line m))
  | turn {m m' : Machine σ} {input : Input} {line : String} {taken : List Input}
    {made : List (Turn σ)} {ending : Except Fault Unit} {status : Int}
    (h : m.workspace.stopped = false) (hinput : input.line? = some line)
    (hstatus : (I.outcome (turnFor line m)).1 = .ok status)
    (hrest : Conversed (I.after (turnFor line m)) taken made ending m') :
    Conversed m (input :: taken) (turnFor line m :: made) ending m'

variable (I) in
/-- There is something that ends a conversation: the shell is stopped, or the input ends, or one
of its lines stops the shell. -/
def Concludes (inputs : List Input) (m : Machine σ) : Prop :=
  m.workspace.stopped = true ∨ .endOfInput ∈ inputs ∨ ∃ t ∈ I.turns m inputs, I.Stops t

section

variable {input : Input} {line : String} {rest : List Input}

/-- After a line there still is.  If it was this line, the shell is stopped now. -/
theorem Concludes.after (h : I.Concludes (input :: rest) m) (hm : m.workspace.stopped = false)
    (hinput : input.line? = some line) : I.Concludes rest (I.after (turnFor line m)) := by
  obtain hstopped | hend | ⟨t, ht, hstops⟩ := h
  · rw [hm] at hstopped
    cases hstopped
  · obtain rfl | hend := List.mem_cons.1 hend
    · cases hinput
    · exact .inr (.inl hend)
  · rw [turns_of_line hinput] at ht
    obtain rfl | ht := List.mem_cons.1 ht
    · exact .inl ((stopped_after _).2 hstops)
    · exact .inr (.inr ⟨t, ht, hstops⟩)

theorem eq_endOfInput_of_line? (h : input.line? = none) : input = .endOfInput := by
  cases input with
  | endOfInput => rfl
  | line text => cases h
  | interrupt => cases h

end

theorem perform_turn (line : String) (m : Machine σ) :
    I.perform (Routine.turn line) m =
      ((I.outcome (turnFor line m)).1.map fun _ => (), I.after (turnFor line m)) := by
  rw [after]
  cases hresult : I.outcome (turnFor line m) with
  | mk result m₁ =>
    cases result with
    | ok status => exact Routine.run_turn_of_ok hresult
    | error fault => exact Routine.run_turn_of_error hresult

/-- The loop is a conversation, if there is something that ends it. -/
theorem exists_conversed (inputs : List Input) (reads : Nat) (m : Machine σ)
    (hends : I.Concludes inputs m) :
    ∃ taken left made ending m', I.Conversed m taken made ending m' ∧ inputs = taken ++ left ∧
      I.perform (Routine.loopFrom reads inputs) m =
        (ending.map fun _ => ⟨Status.success, reads + taken.length, left⟩, m') := by
  induction inputs generalizing reads m with
  | nil =>
    have hstopped : m.workspace.stopped = true := by simpa [Concludes, turns] using hends
    exact ⟨[], [], [], .ok (), m, .stopped hstopped, rfl,
      Routine.run_loopFrom_of_stopped hstopped reads []⟩
  | cons input rest ih =>
    cases hstopped : m.workspace.stopped with
    | true =>
      exact ⟨[], input :: rest, [], .ok (), m, .stopped hstopped, rfl,
        Routine.run_loopFrom_of_stopped hstopped reads (input :: rest)⟩
    | false =>
      cases hinput : input.line? with
      | none =>
        obtain rfl := eq_endOfInput_of_line? hinput
        exact ⟨[.endOfInput], rest, [], .ok (), _, .ended hstopped, rfl,
          Routine.run_loopFrom_of_end hstopped reads hinput rest⟩
      | some line =>
        have hturn := I.perform_turn line m
        cases hresult : (I.outcome (turnFor line m)).1 with
        | error fault =>
          rw [hresult] at hturn
          exact ⟨[input], rest, _, .error fault, _, .failed hstopped hinput hresult, rfl,
            Routine.run_loopFrom_of_fault hstopped reads hinput hturn rest⟩
        | ok status =>
          rw [hresult] at hturn
          obtain ⟨taken, left, made, ending, m', hconversed, rfl, hloop⟩ :=
            ih (reads + 1) _ (hends.after hstopped hinput)
          refine ⟨input :: taken, left, _, ending, m',
            .turn hstopped hinput hresult hconversed, rfl, ?_⟩
          rw [perform] at hloop
          rw [perform, Routine.run_loopFrom_of_line hstopped reads hinput hturn, hloop,
            List.length_cons, Nat.add_assoc, Nat.add_comm 1]

/-! ## What happens during a turn -/

theorem logsOnly_turnFor (line : String) (m : Machine σ) : LogsOnly m (turnFor line m).before :=
  logsOnly_tell m _

theorem grows_after (t : Turn σ) : Grows I.shell.maxDepth t.before (I.after t) :=
  (I.isDispatch_dispatch t.line t.before).grows.trans ((logsOnly_after t).grows _)

/-- The line of a turn is dispatched once, and every other line during it further down. -/
theorem linesAt_after (t : Turn σ) :
    linesAt (t.before.depth + 1) (t.before.since (I.after t)) = [t.line] := by
  have hdispatch : IsDispatch I.shell.maxDepth t.line t.before (I.outcome t) :=
    I.isDispatch_dispatch t.line t.before
  have hlog := logsOnly_after (I := I) t
  have hsince : t.before.since (I.after t) = t.before.since (I.outcome t).2 := by
    rw [hdispatch.grows.since_trans (hlog.grows _), hlog.since_eq, since_self, List.append_nil]
  rw [hsince]
  exact hdispatch.since.linesAt_eq

/-! ## What was taken -/

/-- The turns are for what was typed, in this order. -/
def Matches (inputs : List Input) (made : List (Turn σ)) : Prop :=
  inputs.map Input.line? = made.map fun t => some t.line

variable (I) in
/-- What was taken of the input, and why no more: nothing, if the shell was stopped; all of it, if
every turn was answered and none stopped the shell; otherwise the lines up to the first that
stopped it, or was not answered. -/
inductive Heard (m : Machine σ) : Except Fault Unit → List Input → List (Turn σ) → Prop
  | nothing (h : m.workspace.stopped = true) : Heard m (.ok ()) [] []
  | all {lines : List Input} {made : List (Turn σ)} (h : m.workspace.stopped = false)
    (hlines : Matches lines made) (hmade : ∀ t ∈ made, I.Continues t) :
    Heard m (.ok ()) (lines ++ [.endOfInput]) made
  | upTo {lines : List Input} {made : List (Turn σ)} {last : Turn σ} {status : Int}
    (h : m.workspace.stopped = false) (hlines : Matches lines (made ++ [last]))
    (hmade : ∀ t ∈ made, I.Continues t) (hstatus : (I.outcome last).1 = .ok status)
    (hlast : I.Stops last) : Heard m (.ok ()) lines (made ++ [last])
  | failed {lines : List Input} {made : List (Turn σ)} {last : Turn σ} {fault : Fault}
    (h : m.workspace.stopped = false) (hlines : Matches lines (made ++ [last]))
    (hmade : ∀ t ∈ made, I.Continues t) (hlast : (I.outcome last).1 = .error fault) :
    Heard m (.error fault) lines (made ++ [last])

theorem Matches.cons {inputs : List Input} {made : List (Turn σ)} {input : Input}
    (hinput : input.line? = some t.line) (h : Matches inputs made) :
    Matches (input :: inputs) (t :: made) := by
  rw [Matches, List.map_cons, List.map_cons, hinput, h]

namespace Heard

variable {input : Input} {line : String} {taken : List Input} {made : List (Turn σ)}
  {ending : Except Fault Unit} {status : Int}

/-- What is heard after a turn is heard after all that was there before. -/
theorem turn (h : m.workspace.stopped = false) (hinput : input.line? = some line)
    (hstatus : (I.outcome (turnFor line m)).1 = .ok status)
    (hrest : I.Heard (I.after (turnFor line m)) ending taken made) :
    I.Heard m ending (input :: taken) (turnFor line m :: made) := by
  have hgoes : (I.after (turnFor line m)).workspace.stopped = false →
      I.Continues (turnFor line m) := by
    intro hafter
    refine ⟨⟨status, hstatus⟩, ?_⟩
    rw [← stopped_after, hafter]
    exact Bool.false_ne_true
  cases hrest with
  | nothing hafter =>
    change I.Heard m (.ok ()) [input] ([] ++ [turnFor line m])
    exact .upTo h (Matches.cons hinput rfl) (by simp) hstatus ((stopped_after _).1 hafter)
  | all hafter hlines hmade =>
    rw [← List.cons_append]
    exact .all h (hlines.cons hinput) (List.forall_mem_cons.2 ⟨hgoes hafter, hmade⟩)
  | upTo hafter hlines hmade hstatus hlast =>
    rw [← List.cons_append]
    exact .upTo h (hlines.cons hinput) (List.forall_mem_cons.2 ⟨hgoes hafter, hmade⟩) hstatus hlast
  | failed hafter hlines hmade hlast =>
    rw [← List.cons_append]
    exact .failed h (hlines.cons hinput) (List.forall_mem_cons.2 ⟨hgoes hafter, hmade⟩) hlast

/-- A conversation that fails does so in the last of its turns. -/
theorem exists_of_error {fault : Fault} (h : I.Heard m (.error fault) taken made) :
    ∃ t ∈ made, (I.outcome t).1 = .error fault := by
  cases h with
  | failed _ _ _ hlast => exact ⟨_, by simp, hlast⟩

end Heard

namespace Conversed

variable {taken : List Input} {made : List (Turn σ)} {ending : Except Fault Unit}

theorem heard (h : I.Conversed m taken made ending m') : I.Heard m ending taken made := by
  induction h with
  | stopped h => exact .nothing h
  | ended h =>
    rw [← List.nil_append [Input.endOfInput]]
    exact .all h rfl (by simp)
  | failed h hinput hfault =>
    rw [← List.nil_append [turnFor _ _]]
    exact .failed h (Matches.cons hinput rfl) (by simp) hfault
  | turn h hinput hstatus _ ih => exact ih.turn h hinput hstatus

theorem prefix_turns (h : I.Conversed m taken made ending m') (left : List Input) :
    made <+: I.turns m (taken ++ left) := by
  induction h with
  | stopped h => exact List.nil_prefix
  | ended h => exact List.nil_prefix
  | failed h hinput _ =>
    rw [List.cons_append, turns_of_line hinput]
    exact (List.prefix_cons_inj _).2 List.nil_prefix
  | turn h hinput _ _ ih =>
    rw [List.cons_append, turns_of_line hinput]
    exact (List.prefix_cons_inj _).2 ih

theorem grows (h : I.Conversed m taken made ending m') : Grows I.shell.maxDepth m m' := by
  induction h with
  | stopped h => exact .refl ..
  | ended h => exact (logsOnly_tell _ _).grows _
  | failed h hinput _ => exact ((logsOnly_turnFor ..).grows _).trans (grows_after _)
  | turn h hinput _ _ ih =>
    exact ((logsOnly_turnFor ..).grows _).trans ((grows_after _).trans ih)

/-- Every turn begins at the depth where the conversation began. -/
theorem depth_before (h : I.Conversed m taken made ending m') :
    ∀ t ∈ made, t.before.depth = m.depth := by
  induction h with
  | stopped h => simp
  | ended h => simp
  | failed h hinput _ => simpa using (logsOnly_turnFor _ _).depth
  | @turn m _ _ line _ _ _ _ h hinput _ hrest ih =>
    have hfirst : (turnFor line m).before.depth = m.depth := (logsOnly_turnFor line m).depth
    rw [List.forall_mem_cons]
    refine ⟨hfirst, fun t ht => ?_⟩
    exact (ih t ht).trans ((grows_after _).depth.trans hfirst)

/-- What is dispatched at the depth of a conversation are the lines of its turns. -/
theorem linesAt_since (h : I.Conversed m taken made ending m') :
    linesAt (m.depth + 1) (m.since m') = made.map Turn.line := by
  induction h with
  | stopped h =>
    rw [since_self]
    rfl
  | ended h =>
    rw [(logsOnly_tell _ _).since_eq, since_self]
    rfl
  | @failed m _ line _ h hinput _ =>
    have hfirst := logsOnly_turnFor line m
    rw [hfirst.since_eq, ← hfirst.depth, linesAt_after]
    rfl
  | @turn m _ _ line _ _ _ _ h hinput _ hrest ih =>
    have hfirst := logsOnly_turnFor line m
    have hturn : Grows I.shell.maxDepth (turnFor line m).before (I.after (turnFor line m)) :=
      grows_after _
    rw [hfirst.since_eq, hturn.since_trans hrest.grows, linesAt_append, ← hfirst.depth,
      linesAt_after, ← hturn.depth, ih, List.map_cons, List.singleton_append]

/-- These are the lines that were taken. -/
theorem map_line (h : I.Conversed m taken made ending m') :
    made.map Turn.line = taken.filterMap Input.line? := by
  induction h with
  | stopped h => rfl
  | ended h => rfl
  | failed h hinput _ =>
    rw [List.filterMap_cons_some hinput]
    rfl
  | turn h hinput _ _ ih =>
    rw [List.map_cons, ih, List.filterMap_cons_some hinput]
    rfl

end Conversed

end Interpreter

/-- A shell with two handlers of its own: one fails, and the other hands `quit` over. -/
def reluctant : Interpreter Unit where
  shell := { root := ⟨0⟩ }
  handlers name _ :=
    if name = "leave" then Routine.dispatchLine "quit" else .raise (.failed .runtime "no")

theorem composed_reluctant (name : String) (call : Call) :
    (reluctant.handlers name call).Composed := by
  rw [reluctant]
  dsimp only
  split_ifs
  · exact Routine.closed_composed.dispatchLine "quit"
  · exact Routine.closed_composed.raise _ rfl

theorem leavesWord_reluctant : reluctant.LeavesWord := by
  refine Interpreter.leavesWord_of_keepsWords fun name call => ?_
  rw [reluctant]
  dsimp only
  split_ifs
  · exact Routine.closed_keepsWords.dispatchLine "quit"
  · exact Routine.closed_keepsWords.raise _ trivial

/-- Its commands. -/
def reluctantStart : Machine Unit where
  workspace :=
    { store :=
        { commands :=
            [{ children := some (.owned ⟨0⟩) },
              { keyword := "try", handler := some (.custom "try") },
              { keyword := "leave", handler := some (.custom "leave") },
              { keyword := "quit", handler := some (.builtin .quit), context := .interpreter }]
          registries := [{ items := [⟨1⟩, ⟨2⟩, ⟨3⟩] }] }
      disk := { entries := [] }
      environment := {}
      application := () }
  journal := Journal.fresh

/-- A command that fails, a line that is given up, and a command that stops the shell from
within, with one more line behind them. -/
def reluctantInputs : List Input := [.line "try", .interrupt, .line "leave", .line "try"]

end CommandShell
