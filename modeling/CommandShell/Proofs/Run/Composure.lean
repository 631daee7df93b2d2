import CommandShell.Launch
import CommandShell.Proofs.Run.Abort
import CommandShell.Proofs.Run.Depth

/-!
# Runs that nobody gives up

A dispatch passes aborts on, and nothing else if handlers leave a word of those that they were
given.  No built-in command aborts by itself: what fails in it is a file or a path, or something
that it calls.  So where the handlers of the application do not abort, every dispatch answers with
a status.  Then a script answers with one as well, whether it can be opened and read or not, and so
does the loop.  Only a path that the system cannot even be asked about, one with NUL in it, is the
end of a script.
-/

namespace CommandShell

open Machine

variable {σ ρ τ : Type}

/-! ## Paths with NUL in them -/

namespace Path

variable {c : Char}

theorem mem_splitSlashes (hc : c ≠ '/') (current cs : List Char) :
    (∃ part ∈ splitSlashes current cs, c ∈ part.toList) ↔ c ∈ current ∨ c ∈ cs := by
  induction cs generalizing current with
  | nil => simp [splitSlashes]
  | cons d rest ih =>
    rw [splitSlashes]
    split_ifs with hd
    · simp [ih, hd, hc]
    · rw [ih, List.mem_cons, List.mem_cons, or_left_comm, or_assoc]

theorem mem_intercalate (hc : c ≠ '/') (parts : List String) :
    c ∈ ("/".intercalate parts).toList ↔ ∃ part ∈ parts, c ∈ part.toList := by
  induction parts with
  | nil => simp
  | cons part rest ih =>
    cases rest with
    | nil => simp
    | cons next rest =>
      rw [String.intercalate_cons_cons, String.toList_append, String.toList_append,
        List.mem_append, List.mem_append, ih]
      simp [hc]

theorem mem_ofParts (hslash : c ≠ '/') (hdot : c ≠ '.') (path : String) (parts : List String) :
    c ∈ (ofParts (root path) parts).toList ↔ ∃ part ∈ parts, c ∈ part.toList := by
  have hroot : c ∉ (root path).toList := by
    rw [root]
    split <;> simp [hslash]
  have hparts : c ∈ (root path ++ "/".intercalate parts).toList ↔
      ∃ part ∈ parts, c ∈ part.toList := by
    rw [String.toList_append, List.mem_append, or_iff_right hroot, mem_intercalate hslash]
  rw [ofParts]
  split_ifs with hempty
  · rw [← hparts, String.isEmpty_iff.1 hempty]
    simp [hdot]
  · exact hparts

theorem mem_parts (hslash : c ≠ '/') (hdot : c ≠ '.') (path : String) :
    (∃ part ∈ parts path, c ∈ part.toList) ↔ c ∈ path.toList := by
  have hsplit := mem_splitSlashes hslash [] path.toList
  rw [or_iff_right List.not_mem_nil] at hsplit
  rw [parts, ← hsplit]
  constructor
  · rintro ⟨part, hpart, hmem⟩
    exact ⟨part, (List.mem_filter.1 hpart).1, hmem⟩
  · rintro ⟨part, hpart, hmem⟩
    refine ⟨part, List.mem_filter.2 ⟨hpart, ?_⟩, hmem⟩
    rw [Bool.and_eq_true, bne_iff_ne, bne_iff_ne]
    constructor <;> rintro rfl <;> simp [hdot] at hmem

/-- Cleaning a path takes slashes and dots away, and adds no others. -/
theorem mem_clean (hslash : c ≠ '/') (hdot : c ≠ '.') (path : String) :
    c ∈ (clean path).toList ↔ c ∈ path.toList :=
  (mem_ofParts hslash hdot path _).trans (mem_parts hslash hdot path)

theorem mem_of_mem_parent (hslash : c ≠ '/') (hdot : c ≠ '.') {path : String}
    (h : c ∈ (parent path).toList) : c ∈ path.toList := by
  obtain ⟨part, hpart, hmem⟩ := (mem_ofParts hslash hdot path _).1 h
  exact (mem_parts hslash hdot path).1 ⟨part, (List.dropLast_sublist _).subset hpart, hmem⟩

end Path

theorem Disk.admissible_clean (path : String) : admissible (Path.clean path) = admissible path := by
  rw [admissible, admissible, Bool.eq_iff_iff]
  simp [Path.mem_clean]

theorem Disk.admissible_parent {path : String} (h : admissible path = true) :
    admissible (Path.parent path) = true := by
  rw [admissible, Bool.not_eq_true', ← Bool.not_eq_true, List.contains_iff_mem] at h ⊢
  exact mt (Path.mem_of_mem_parent (by decide) (by decide)) h

/-! ## Changes of the log -/

theorem Journal.isAbort_setFile {j : Journal} {disk : Disk} {path : String} {fault : Fault}
    (h : j.setFile disk path = .error fault) : fault.isAbort = false := by
  rw [setFile] at h
  split_ifs at h
  · cases h
  · cases hopen : disk.openForAppend (Path.absolute disk.cwdPath path) with
    | ok opened =>
      rw [hopen] at h
      cases h
    | error other =>
      rw [hopen] at h
      cases h
      exact Disk.isAbort_onPath hopen

/-- A change of the log fails only if its file cannot be opened. -/
theorem Machine.isAbort_changeLog {m : Machine σ} {change : Journal.Change} {fault : Fault}
    (h : (m.changeLog change).1 = .error fault) : fault.isAbort = false := by
  cases change with
  | keep => cases h
  | restart path debug =>
    rw [changeLog, Journal.restart] at h
    dsimp only at h
    generalize (if debug then m.journal.enableDebug else m.journal).clear = j at h
    split_ifs at h
    split at h
    next other hfile =>
      cases h
      exact Journal.isAbort_setFile hfile
    next => cases h
  | «obtain» name level => cases h
  | level n => cases h
  | screen enabled => cases h
  | file path =>
    rw [changeLog] at h
    split at h
    next => cases h
    next other hfile =>
      cases h
      exact Journal.isAbort_setFile hfile

/-! ## Routines -/

/-- The call does not end by an abort. -/
def Spec.composed : Spec σ := fun _ result => abortOf result.1 = none

/-- Whatever a routine calls at a depth is well nested and does not end by an abort. -/
abbrev Reentry.Composed (limit : Int) (depth : Nat) (re : Reentry σ) : Prop :=
  re.Meets depth (fun _ => (Spec.nests limit).and Spec.composed)
    ((Spec.nests limit).and Spec.composed)

namespace Routine

/-- The routine does not end by an abort unless something that it calls does. -/
def Composed (x : Routine σ ρ) : Prop :=
  ∀ limit depth (re : Reentry σ), re.Composed limit depth → ∀ m, m.depth = depth →
    abortOf (x.run re m).1 = none

theorem composed_done (r : ρ) : (done r : Routine σ ρ).Composed :=
  fun _ _ _ _ _ _ => rfl

theorem Composed.bind {x : Routine σ ρ} {f : ρ → Routine σ τ} (hx : x.Composed)
    (hf : ∀ r, (f r).Composed) : (x >>= f).Composed := by
  intro limit depth re hre m hm
  have hdepth := (grows_run (hre.mono (fun _ _ _ h => h.1) (fun _ _ h => h.1)) x m hm).depth
  have hfirst := hx limit depth re hre m hm
  rw [run_bind, Session.bind]
  cases hrun : x.run re m with
  | mk outcome m' =>
    rw [hrun] at hdepth hfirst
    cases outcome with
    | ok r => exact hf r limit depth re hre m' (hdepth.trans hm)
    | error fault => exact hfirst

/-- No built-in command aborts by itself. -/
theorem closed_composed :
    Closed (fun fault => fault.isAbort = false)
      fun {ρ : Type} (x : Routine σ ρ) => x.Composed where
  admits _ h := h
  done := composed_done
  raise fault hfault _ _ _ _ _ _ := by
    rw [run, abortOf, hfault]
    rfl
  look hnext limit depth re hre m hm := hnext _ limit depth re hre m hm
  put w _ hnext limit depth re hre _ hm := hnext limit depth re hre _ hm
  tell note _ hnext limit depth re hre m hm :=
    hnext limit depth re hre _ ((logsOnly_tell m note).depth.trans hm)
  logging change next _ hnext limit depth re hre m hm := by
    rw [run_logging]
    refine hnext _ (fun fault hfault => ?_) limit depth re hre _
      ((logsOnly_changeLog m change).depth.trans hm)
    cases hlog : (m.changeLog change).1 with
    | ok _ =>
      rw [hlog] at hfault
      cases hfault
    | error other =>
      rw [hlog] at hfault
      cases hfault
      exact isAbort_changeLog hlog
  dispatchLine line _ _ re hre m hm := by
    rw [dispatchLine, run_dispatch, run_ofExcept]
    exact (hre.dispatch line m hm).2
  handOver c _ _ re hre m hm := by
    rw [handOver, run_delegate, run_ofExcept]
    exact (hre.delegate c m hm).2
  bind := Composed.bind

end Routine

/-! ## Dispatches -/

namespace Interpreter

variable {I : Interpreter σ}

/-- If the handlers of the application do not abort, neither do calls and dispatches. -/
theorem contract_composed (h : ∀ name call, (I.handlers name call).Composed) :
    I.Contract (fun _ => Spec.composed) Spec.composed where
  tooMany _ := rfl
  silent _ := rfl
  called re m c handler args _ hre := by
    have hroutine : (I.routineFor (callOf m c handler args)).Composed := by
      cases handler with
      | builtin b => exact Routine.closed_composed.builtin I.shell _ b
      | custom name => exact h name _
    exact hroutine _ _ re (hre.mono (fun _ _ _ h => ⟨h.1.grows, h.2⟩) (fun _ _ h => h))
      (m.taking (callOf m c handler args)) rfl
  answered _ _ _ _ _ _ := rfl
  dispatched _ _ _ result _ _ _ _ hresult _ _ := (abortOf_settled _ result.1).trans hresult

/-- Then a dispatch fails only because a handler failed that left none of its words. -/
theorem eq_noWords_of_composed (h : ∀ name call, (I.handlers name call).Composed) {line : String}
    {m : Machine σ} {fault : Fault} (hfault : (I.dispatch line m).1 = .error fault) :
    fault = .noWords := by
  have hcomposed : abortOf (I.dispatch line m).1 = none := (contract_composed h).dispatch line m
  obtain ⟨-, events, -, hevents⟩ := I.isDispatch_dispatch line m
  rw [hfault] at hcomposed hevents
  obtain habort | ⟨hwords, -⟩ := hevents.fault_cases
  · rw [abortOf, if_pos habort] at hcomposed
    cases hcomposed
  · exact hwords

/-- Every dispatch answers with a status. -/
def Answers (I : Interpreter σ) : Prop :=
  ∀ line m, ∃ status m', I.dispatch line m = (.ok status, m')

theorem answers_of_composed (h : ∀ name call, (I.handlers name call).Composed)
    (hleaves : I.LeavesWord) : I.Answers := by
  intro line m
  have hcomposed : abortOf (I.dispatch line m).1 = none := (contract_composed h).dispatch line m
  have haborts := (contract_isAbort hleaves).dispatch line m
  cases hresult : I.dispatch line m with
  | mk outcome m' =>
    rw [hresult] at hcomposed haborts
    cases outcome with
    | ok status => exact ⟨status, m', rfl⟩
    | error fault =>
      rw [abortOf, if_pos (haborts fault rfl)] at hcomposed
      cases hcomposed

/-! ## Scripts and the loop -/

/-- A script that cannot be opened. -/
theorem runScript_of_trouble {path : String} {m : Machine σ} {fault : Fault}
    (hopen : m.workspace.disk.openForReading (Path.clean path) = .error fault)
    (hfault : fault.isFileTrouble = true) :
    I.perform (Routine.runScript path) m = (.ok Status.notFound, m.tell ⟨Channel.builtins,
      Level.error, "Could not open " ++ path ++ " for reading: " ++ fault.message, none⟩) := by
  rw [perform, Routine.runScript, Routine.openScript, Routine.run_bind, Session.bind,
    Routine.run_workspace]
  dsimp only
  rw [hopen]
  dsimp only
  rw [if_pos hfault]
  rfl

/-- The system cannot be asked about a path with NUL in it. -/
theorem runScript_of_nul {path : String} (hpath : Disk.admissible path = false) (m : Machine σ) :
    I.perform (Routine.runScript path) m = (.error .nulInPath, m) := by
  have hopen : m.workspace.disk.openForReading (Path.clean path) = .error .nulInPath := by
    rw [Disk.openForReading, Disk.onPath, Disk.admissible_clean, hpath]
    rfl
  rw [perform, Routine.runScript, Routine.openScript, Routine.run_bind, Session.bind,
    Routine.run_workspace]
  dsimp only
  rw [hopen]
  rfl

namespace Answers

variable (h : I.Answers)

include h

theorem follow (path : String) (place : Place) (limit position : Nat) (soFar : Int)
    (m : Machine σ) :
    ∃ status m', I.perform (Routine.follow path place limit position soFar) m =
      (.ok status, m') := by
  rw [perform]
  induction limit generalizing position soFar m with
  | zero => exact ⟨soFar, m, rfl⟩
  | succ limit ih =>
    cases hnext : m.workspace.disk.nextLine place position with
    | ended => exact ⟨soFar, m, Routine.run_follow_of_ended hnext⟩
    | broken trouble => exact ⟨soFar, _, Routine.run_follow_of_broken hnext⟩
    | line octets =>
      obtain ⟨status, m₁, hresult⟩ := h (Text.lineText octets) m
      rw [Routine.run_follow_of_line hnext, Routine.run_runLine_of_ok hresult]
      exact ih ..

/-- A script answers, whether it can be opened and read or not. -/
theorem runScript {path : String} (hpath : Disk.admissible path = true) (m : Machine σ) :
    ∃ status m', I.perform (Routine.runScript path) m = (.ok status, m') := by
  rw [← Disk.admissible_clean] at hpath
  cases hopen : m.workspace.disk.openForReading (Path.clean path) with
  | ok place =>
    rw [perform, Routine.run_runScript_of_ok hopen]
    exact h.follow ..
  | error fault =>
    have hfault : fault.isFileTrouble = true := Disk.isFileTrouble_onPath hpath hopen
    exact ⟨_, _, runScript_of_trouble hopen hfault⟩

theorem turn (line : String) (m : Machine σ) :
    ∃ m', I.perform (Routine.turn line) m = (.ok (), m') := by
  obtain ⟨status, m', hresult⟩ := h line (m.tell (Routine.lineNote line))
  exact ⟨_, Routine.run_turn_of_ok hresult⟩

theorem loopFrom (reads : Nat) (inputs : List Input) (m : Machine σ) :
    ∃ report m', I.perform (Routine.loopFrom reads inputs) m = (.ok report, m') := by
  induction inputs generalizing reads m with
  | nil =>
    cases hstopped : m.workspace.stopped with
    | true => exact ⟨_, _, Routine.run_loopFrom_of_stopped hstopped reads []⟩
    | false => exact ⟨_, _, Routine.run_loopFrom_nil hstopped reads⟩
  | cons input rest ih =>
    cases hstopped : m.workspace.stopped with
    | true => exact ⟨_, _, Routine.run_loopFrom_of_stopped hstopped reads (input :: rest)⟩
    | false =>
      cases hinput : input.line? with
      | none => exact ⟨_, _, Routine.run_loopFrom_of_end hstopped reads hinput rest⟩
      | some line =>
        obtain ⟨m', hturn⟩ := h.turn line m
        rw [perform, Routine.run_loopFrom_of_line hstopped reads hinput hturn]
        exact ih (reads + 1) m'

/-- The loop answers, whatever is typed. -/
theorem loop (inputs : List Input) (m : Machine σ) :
    ∃ report m', I.perform (Routine.loop inputs) m = (.ok report, m') :=
  h.loopFrom 0 inputs m

end Answers

end Interpreter

end CommandShell
