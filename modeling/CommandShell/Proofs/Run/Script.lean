import CommandShell.Proofs.Run.Orderly

/-!
# The status of a script

A script dispatches its lines, and some of these run scripts of their own.  It answers with
the first negative status of its lines; since a line that runs a script answers with the
status of that script, this is the first negative status of any dispatch, however deeply
nested, in the order in which dispatches end.

This would not hold if other handlers dispatched lines, since they may do with a status
what they like, nor if a dispatch gave no status at all.
-/

namespace CommandShell

open Machine

variable {σ ρ τ : Type}

/-! ## Events -/

/-- The status with which a dispatch ended. -/
def Event.status? : Event → Option Int
  | .left _ _ (.ok status) => some status
  | _ => none

/-- The first negative status with which a dispatch ended. -/
def firstNegative (events : List Event) : Option Int :=
  (events.filterMap Event.status?).find? (· < 0)

@[simp] theorem firstNegative_nil : firstNegative [] = none := rfl

theorem firstNegative_append (first second : List Event) :
    firstNegative (first ++ second) = (firstNegative first).or (firstNegative second) := by
  simp [firstNegative, List.find?_append]

theorem firstNegative_cons_of_none {event : Event} (h : event.status? = none)
    (rest : List Event) : firstNegative (event :: rest) = firstNegative rest := by
  simp [firstNegative, h]

@[simp] theorem firstNegative_left (depth : Nat) (line : String) (status : Int) :
    firstNegative [.left depth line (.ok status)] = if status < 0 then some status else none := by
  by_cases h : status < 0 <;> simp [firstNegative, Event.status?, h]

theorem neg_of_firstNegative {events : List Event} {status : Int}
    (h : firstNegative events = some status) : status < 0 := by
  simpa using List.find?_some h

/-- The lines whose dispatch begins at a depth. -/
def linesAt (depth : Nat) (events : List Event) : List String :=
  events.filterMap fun
    | .entered depth' line => if depth' = depth then some line else none
    | _ => none

theorem linesAt_append (depth : Nat) (first second : List Event) :
    linesAt depth (first ++ second) = linesAt depth first ++ linesAt depth second :=
  List.filterMap_append ..

section

variable {limit : Int} {depth : Nat} {events : List Event}

/-- While a handler is under way that must not dispatch, no dispatch ends. -/
theorem Activity.firstNegative_eq_none (h : Activity limit depth events) {busy : Nat}
    (hbusy : 0 < busy) (horderly : Orderly busy events) : firstNegative events = none := by
  induction h generalizing busy with
  | idle => rfl
  | remark text _ ih =>
    rw [firstNegative_cons_of_none rfl]
    exact ih hbusy horderly
  | call call outcome left _ hinner _ ihinner ihrest =>
    rw [Orderly, hinner.orderly_append, Orderly, Nat.add_sub_cancel] at horderly
    rw [firstNegative_cons_of_none rfl, firstNegative_append, firstNegative_cons_of_none rfl,
      ihinner (by omega) horderly.1, ihrest hbusy horderly.2]
    rfl
  | refused | answered | dispatched =>
    have := horderly.1
    omega

/-- What is dispatched in the course of an activity is dispatched further down. -/
theorem Activity.linesAt_eq_nil (h : Activity limit depth events) {depth' : Nat}
    (hdepth : depth' ≤ depth) : linesAt depth' events = [] := by
  have hentered : ∀ {depth depth' : Nat}, depth' ≤ depth → ¬depth + 1 = depth' := by omega
  induction h with
  | idle => rfl
  | remark text _ ih => exact ih hdepth
  | call call outcome left _ _ _ ihinner ihrest =>
    have hinner := ihinner hdepth
    have hrest := ihrest hdepth
    simp_all [linesAt]
  | refused line _ _ ih | answered line status _ _ ih =>
    have hrest := ih hdepth
    simp_all [linesAt]
  | dispatched line call outcome left _ _ _ _ ihinner ihrest =>
    have hinner := ihinner (Nat.le_succ_of_le hdepth)
    have hrest := ihrest hdepth
    simp_all [linesAt]

variable {line : String} {outcome : Except Fault Int}

/-- A dispatch is of one line, and whatever else is dispatched in its course is dispatched
further down. -/
theorem Dispatched.linesAt_eq (h : Dispatched limit depth line outcome events) :
    linesAt (depth + 1) events = [line] := by
  cases h with
  | refused hlimit => simp [linesAt]
  | answered status hlimit => simp [linesAt]
  | called call outcome left hlimit hdepth hinner =>
    have hinner := hinner.linesAt_eq_nil (Nat.le_refl _)
    simp_all [linesAt]

end

/-! ## What is known of calls and dispatches -/

/-- If a dispatch within it ended with a negative status, the call answers with the first
one. -/
def Spec.heeds : Spec σ := fun m result =>
  Orderly 0 (m.since result.2) → Calm (m.since result.2) →
    ∀ status, firstNegative (m.since result.2) = some status → result.1 = .ok status

/-- The dispatch answers, with a negative status exactly if a dispatch in its course, itself
included, ended with one, and then with the first. -/
def Spec.tells : Spec σ := fun m result =>
  Orderly 0 (m.since result.2) → Calm (m.since result.2) →
    ∃ status, result.1 = .ok status ∧
      firstNegative (m.since result.2) = if status < 0 then some status else none

theorem heeds_of_trace {m : Machine σ} {result : Except Fault Int × Machine σ}
    (h : result.2.trace = m.trace) : Spec.heeds m result := by
  have hsince : m.since result.2 = [] := since_eq (by simpa using h)
  intro _ _ status hstatus
  simp [hsince] at hstatus

/-- What a routine may call keeps to both. -/
abbrev Reentry.Heeds (limit : Int) (depth : Nat) (re : Reentry σ) : Prop :=
  re.Meets depth (fun line => (Interpreter.IsDispatch limit line).and Spec.tells)
    ((Spec.nests limit).and Spec.heeds)

theorem Reentry.Heeds.nests {limit : Int} {depth : Nat} {re : Reentry σ}
    (h : re.Heeds limit depth) : re.Nests limit depth :=
  h.mono (fun _ _ _ h => h.1.grows) (fun _ _ h => h.1)

namespace Routine

variable {limit : Int} {depth : Nat} {re : Reentry σ}

/-- In a calm run a line of a script answers, and the script goes on; the events of the
script are those of the line and those of the rest. -/
theorem line_of_calm (hre : re.Heeds limit depth) {soFar : Int} {line : String}
    {rest : Int → Routine σ ρ} {m : Machine σ} (hm : m.depth = depth)
    (hcalm : Calm (m.since ((runLine soFar line >>= rest).run re m).2)) :
    ∃ status m₁, re.dispatch line m = (.ok status, m₁) ∧
      (m₁.tell (resultNote line status)).depth = depth ∧
      (runLine soFar line >>= rest).run re m =
        (rest (firstFailure soFar status)).run re (m₁.tell (resultNote line status)) ∧
      m.since ((runLine soFar line >>= rest).run re m).2 = m.since m₁ ++
        (m₁.tell (resultNote line status)).since ((runLine soFar line >>= rest).run re m).2 := by
  have hdispatch := (hre.dispatch line m hm).1
  cases hresult : re.dispatch line m with
  | mk outcome m₁ =>
    rw [hresult] at hdispatch
    cases outcome with
    | error fault =>
      rw [run_runLine_of_error hresult] at hcalm
      obtain ⟨status, hstatus⟩ := hdispatch.since.eq_ok hcalm
      cases hstatus
    | ok status =>
      have hnote := logsOnly_tell m₁ (resultNote line status)
      have hdepth := hnote.depth.trans (hdispatch.grows.depth.trans hm)
      have hrest := grows_run hre.nests (rest (firstFailure soFar status)) _ hdepth
      refine ⟨status, m₁, rfl, hdepth, run_runLine_of_ok hresult rest, ?_⟩
      rw [run_runLine_of_ok hresult rest, ← hnote.since_eq]
      exact hdispatch.grows.since_trans ((hnote.grows limit).trans hrest)

/-- The status of one more line, among those before and after it. -/
theorem firstFailure_eq (soFar status : Int) (later : Option Int) :
    (if firstFailure soFar status = Status.success then later.getD Status.success
      else firstFailure soFar status) =
    if soFar = Status.success then
      ((if status < 0 then some status else none).or later).getD Status.success
    else soFar := by
  simp only [firstFailure, Status.success]
  grind

/-- A script that is followed to its end, or until it cannot be read on, answers with the first
negative status. -/
theorem status_follow (hre : re.Heeds limit depth) (path : String) (place : Place)
    (fuel position : Nat) (soFar : Int) (m : Machine σ) (hm : m.depth = depth)
    (horderly : Orderly 0 (m.since ((follow path place fuel position soFar).run re m).2))
    (hcalm : Calm (m.since ((follow path place fuel position soFar).run re m).2)) :
    ((follow path place fuel position soFar).run re m).1 =
      .ok (if soFar = Status.success then
        (firstNegative (m.since ((follow path place fuel position soFar).run re m).2)).getD
          Status.success
      else soFar) := by
  induction fuel generalizing position soFar m with
  | zero => simp [follow, run]
  | succ fuel ih =>
    cases hnext : m.workspace.disk.nextLine place position with
    | ended => simp [run_follow_of_ended hnext]
    | broken trouble =>
      rw [run_follow_of_broken hnext, (logsOnly_tell m (breakNote path trouble)).since_eq]
      simp
    | line octets =>
      rw [run_follow_of_line hnext] at horderly hcalm ⊢
      obtain ⟨status, m₁, hresult, hdepth, hrun, hsince⟩ := line_of_calm hre hm hcalm
      obtain ⟨hdispatch, htells⟩ := hre.dispatch _ m hm
      rw [hresult] at hdispatch htells
      rw [hsince, hrun] at horderly hcalm
      rw [hdispatch.grows.since.2.orderly_append] at horderly
      obtain ⟨hcalm₁, hcalm₂⟩ := calm_append.1 hcalm
      obtain ⟨_, hstatus, hfirst⟩ := htells horderly.1 hcalm₁
      cases hstatus
      rw [hsince, hrun, ih _ _ _ hdepth horderly.2 hcalm₂, firstNegative_append, hfirst,
        firstFailure_eq]

theorem heeds_openScript {path : String} {next : Disk → Place → Routine σ Int} (m : Machine σ)
    (hnext : ∀ place, Spec.heeds m ((next m.workspace.disk place).run re m)) :
    Spec.heeds m ((openScript path next).run re m) := by
  cases hopen : m.workspace.disk.openForReading (Path.clean path) with
  | error fault =>
    obtain ⟨m', hm', hrun⟩ : ∃ m', LogsOnly m m' ∧ (openScript path next).run re m = _ :=
      run_openScript_of_error hopen
    rw [hrun]
    exact heeds_of_trace hm'.trace
  | ok place =>
    rw [run_openScript_of_ok hopen]
    exact hnext place

theorem heeds_runScript (hre : re.Heeds limit depth) (path : String) (m : Machine σ)
    (hm : m.depth = depth) : Spec.heeds m ((runScript path).run re m) := by
  refine heeds_openScript m fun place => ?_
  intro horderly hcalm status hstatus
  rw [status_follow hre path place _ 0 Status.success m hm horderly hcalm, hstatus]
  rfl

/-- Where no line can be dispatched, there is nothing to heed. -/
theorem heeds_failScript (path : String) (fault : Fault) (m : Machine σ) :
    Spec.heeds m ((failScript path fault).run re m) := by
  refine heeds_openScript m fun place => ?_
  cases m.workspace.disk.nextLine place 0 with
  | ended => exact heeds_of_trace rfl
  | line octets => exact heeds_of_trace rfl
  | broken trouble => exact heeds_of_trace (logsOnly_tell m _).trace

/-- A call that is handed over answers as the one that it is handed over to. -/
theorem heeds_logRoutine (hre : re.Heeds limit depth) (c : CommandId) (keyword : String)
    (m : Machine σ) (hm : m.depth = depth) :
    Spec.heeds m ((Builtin.logRoutine c keyword).run re m) := by
  have hfind : (Builtin.find c keyword).run re m =
      (.ok (m.workspace.store.find c keyword).value,
        m.tellAll (m.workspace.store.find c keyword).notes) := run_noted ..
  have hnotes := logsOnly_tellAll m (m.workspace.store.find c keyword).notes
  rw [Builtin.logRoutine, run_bind, Session.bind, hfind]
  dsimp only
  cases (m.workspace.store.find c keyword).value with
  | none => exact heeds_of_trace ((logsOnly_tell _ _).trace.trans hnotes.trace)
  | some sub =>
    have hcall := (hre.delegate sub _ (hnotes.depth.trans hm)).2
    rw [Spec.heeds, ← hnotes.since_eq] at hcall
    dsimp only
    rw [handOver, run_delegate, run_ofExcept]
    exact hcall

/-- The lines that are dispatched at the depth of a script are its own. -/
theorem linesAt_runLines (hre : re.Heeds limit depth) (soFar : Int) (lines : List String)
    (m : Machine σ) (hm : m.depth = depth)
    (hcalm : Calm (m.since ((runLines soFar lines).run re m).2)) :
    linesAt (depth + 1) (m.since ((runLines soFar lines).run re m).2) = lines := by
  induction lines generalizing soFar m with
  | nil => simp [runLines, run, linesAt]
  | cons line rest ih =>
    rw [runLines_cons] at hcalm ⊢
    obtain ⟨status, m₁, hresult, hdepth, hrun, hsince⟩ := line_of_calm hre hm hcalm
    have hdispatch := (hre.dispatch line m hm).1
    rw [hresult] at hdispatch
    rw [hsince, hrun] at hcalm ⊢
    rw [linesAt_append, ih _ _ hdepth (calm_append.1 hcalm).2, ← hm, hdispatch.since.linesAt_eq]
    rfl

end Routine

/-! ## Every run -/

namespace Interpreter

variable (I : Interpreter σ)

theorem heeds_routineFor {limit : Int} {depth : Nat} {re : Reentry σ} (hre : re.Heeds limit depth)
    {call : Call} (hcall : call.isConduit) (m : Machine σ) (hm : m.depth = depth) :
    Spec.heeds m ((I.routineFor call).run re m) := by
  have hcomplain : ∀ message, Spec.heeds m ((Builtin.complain message).run re m) :=
    fun _ => heeds_of_trace (logsOnly_tell m _).trace
  simp only [Call.isConduit, Bool.or_eq_true, beq_iff_eq] at hcall
  rw [routineFor]
  obtain hhandler | hhandler := hcall
  · rw [hhandler]
    dsimp only
    rw [Builtin.routine]
    split
    · cases call.context with
      | interpreter => exact Routine.heeds_runScript hre _ m hm
      | value v => exact Routine.heeds_failScript _ _ m
    · exact hcomplain _
  · rw [hhandler]
    dsimp only
    rw [Builtin.routine]
    split
    · exact Routine.heeds_logRoutine hre _ _ m hm
    · exact hcomplain _

/-- Calls heed the statuses of the dispatches within them, and dispatches tell them. -/
theorem contract_heeds : I.Contract (fun _ => Spec.tells) Spec.heeds where
  tooMany m := heeds_of_trace rfl
  silent m := heeds_of_trace rfl
  called re m c handler args _ hre := by
    intro horderly hcalm status hstatus
    generalize hcall : callOf m c handler args = call at *
    have hrun := Routine.grows_run (Reentry.Heeds.nests hre) (I.routineFor call)
      (m.taking call) rfl
    rw [I.since_answer (Reentry.Heeds.nests hre)] at horderly hcalm hstatus
    rw [Orderly, hrun.since.2.orderly_append] at horderly
    rw [firstNegative_cons_of_none rfl, firstNegative_append, firstNegative_cons_of_none rfl,
      firstNegative_nil, Option.or_none] at hstatus
    by_cases hconduit : call.isConduit
    · rw [Call.weight, if_pos hconduit] at horderly
      exact I.heeds_routineFor hre hconduit (m.taking call) rfl horderly.1
        (calm_append.1 hcalm.tail).1 status hstatus
    · rw [Call.weight, if_neg hconduit] at horderly
      rw [hrun.since.2.firstNegative_eq_none (by omega) horderly.1] at hstatus
      cases hstatus
  answered line m m₁ status hm₁ _ := by
    intro _ _
    rw [since_answered hm₁]
    exact ⟨status, rfl, by rw [firstNegative_cons_of_none rfl, firstNegative_left]⟩
  dispatched line m m₁ result m₂ hlimit hm₁ hcall hheeds hm₂ _ := by
    intro horderly hcalm
    have hgrows := hcall.grows hm₁.depth
    obtain ⟨status, hstatus⟩ := (isDispatch_called hlimit hm₁ hcall hm₂).since.eq_ok hcalm
    refine ⟨status, hstatus, ?_⟩
    rw [since_dispatched hm₁ hgrows hm₂] at horderly hcalm ⊢
    have hheeds := hheeds (hgrows.since.2.orderly_append.1 horderly.2).1
      (calm_append.1 hcalm.tail).1
    change settled result.2.words result.1 = .ok status at hstatus
    rw [firstNegative_cons_of_none rfl, firstNegative_append, hstatus, firstNegative_left]
    cases hfirst : firstNegative (m₁.since result.2) with
    | none => rfl
    | some first =>
      -- The handler answered with this status, so the dispatch does.
      rw [hheeds first hfirst] at hstatus
      cases hstatus
      simp [neg_of_firstNegative hfirst]

/-- While lines are dispatched one after another, the file at a place keeps its octets, and can be
read to its end. -/
def KeepsFile (place : Place) (lines : List String) (m : Machine σ) : Prop :=
  ∀ k, (I.perform (Routine.runLines Status.success (lines.take k)) m).2.workspace.disk.stream
    place = (m.workspace.disk.contents place, none)

end Interpreter

/-- The built-in commands to run a script and to leave the loop, where two dispatches may be
nested. -/
def looping : Interpreter Unit where
  shell := { maxDepth := 2, root := ⟨0⟩ }
  handlers _ _ := .done Status.success

/-- The two commands under the top, and a script that runs itself and then leaves the loop. -/
def loopingStart : Machine Unit where
  workspace :=
    { store :=
        { commands :=
            [{ children := some (.owned ⟨0⟩) },
              { keyword := "source", handler := some (.builtin .source), context := .interpreter },
              { keyword := "quit", handler := some (.builtin .quit), context := .interpreter }]
          registries := [{ items := [⟨1⟩, ⟨2⟩] }] }
      disk :=
        { entries :=
            [(["f"], .file
              [115, 111, 117, 114, 99, 101, 32, 47, 102, 10, 113, 117, 105, 116, 10])] }
      environment := {}
      application := () }
  journal := {}

theorem leavesWord_looping : looping.LeavesWord :=
  Interpreter.leavesWord_of_keepsWords fun _ _ => Routine.closed_keepsWords.done _

end CommandShell
