import CommandShell.Launch
import CommandShell.Proofs.Run.Composure

/-!
# Opening the console

Before a launch reads lines, it opens a console: this one gets a logger of its own, and the
directory of the history file is made.  If the system refuses the directory, lines are kept in
memory only.  Two things end the launch instead: the path of the history starts at a home that
cannot be found, or it leads through a name with NUL in it.
-/

namespace CommandShell

variable {σ : Type}

/-! ## Making directories -/

namespace Disk

variable {d : Disk} {path : String} {fault : Fault}

theorem isFileTrouble_makeLast (hpath : admissible path = true)
    (h : (d.makeLast path).1 = .error fault) : fault.isFileTrouble = true := by
  rw [makeLast] at h
  cases hmade : onPath path (d.ensureDirectory path) with
  | ok made =>
    rw [hmade] at h
    cases h
  | error other =>
    rw [hmade] at h
    cases h
    exact isFileTrouble_onPath hpath hmade

theorem isFileTrouble_makeDirectoriesWithin {levels : Nat} (hpath : admissible path = true)
    (h : (makeDirectoriesWithin levels d path).1 = .error fault) : fault.isFileTrouble = true := by
  induction levels generalizing d path with
  | zero => exact isFileTrouble_makeLast hpath h
  | succ levels ih =>
    rw [makeDirectoriesWithin] at h
    cases hmade : d.makeDirectory path with
    | ok made =>
      rw [hmade] at h
      exact isFileTrouble_makeLast hpath h
    | error trouble =>
      rw [hmade] at h
      dsimp only at h
      split_ifs at h
      · exact isFileTrouble_makeLast hpath h
      · exact isFileTrouble_onPath hpath h
      · -- The directory above is made first.
        cases habove : makeDirectoriesWithin levels d (Path.parent path) with
        | mk outcome d' =>
          rw [habove] at h
          cases outcome with
          | ok made => exact isFileTrouble_makeLast hpath h
          | error other =>
            cases h
            exact ih (admissible_parent hpath) (congrArg Prod.fst habove)

end Disk

/-! ## The console -/

namespace Launch

/-- What keeps a console from being opened, given the path of its history. -/
def consoleFault? (env : Environment) (path : String) : Option Fault :=
  if path.isEmpty then none
  else
    match env.expandHome (Path.clean path) with
    | .error fault => some fault
    | .ok p => if Disk.admissible (Path.parent p) then none else some .nulInPath

/-- The history is opened unless something keeps it from that. -/
theorem run_openHistory (re : Reentry σ) (path : String) (m : Machine σ) :
    match consoleFault? m.workspace.environment path with
    | some fault => ∃ m', (Routine.openHistory path).run re m = (.error fault, m')
    | none => ∃ history m', (Routine.openHistory path).run re m = (.ok history, m') := by
  rw [consoleFault?, Routine.openHistory]
  by_cases hpath : path.isEmpty = true
  · rw [if_pos hpath, if_pos hpath]
    exact ⟨_, m, rfl⟩
  rw [if_neg hpath, if_neg hpath, Routine.run_bind, Session.bind, Routine.run_workspace]
  dsimp only
  rw [Routine.run_bind, Session.bind, Routine.run_ofExcept]
  cases m.workspace.environment.expandHome (Path.clean path) with
  | error fault => exact ⟨m, rfl⟩
  | ok p =>
    dsimp only
    cases hmade : m.workspace.disk.makeDirectories (Path.parent p) with
    | mk made disk =>
      rw [Disk.makeDirectories] at hmade
      split_ifs at hmade with hparent
      · rw [if_pos hparent]
        cases made with
        | ok made => exact ⟨_, _, rfl⟩
        | error fault =>
          -- Whatever the system refuses, lines are kept in memory.
          have htrouble : fault.isFileTrouble = true :=
            Disk.isFileTrouble_makeDirectoriesWithin hparent (congrArg Prod.fst hmade)
          dsimp only
          rw [if_pos htrouble]
          exact ⟨_, _, rfl⟩
      · cases hmade
        rw [if_neg hparent]
        exact ⟨_, rfl⟩

/-- **A console can be opened** unless the path of its history keeps it from that. -/
theorem perform_ownConsole (I : Interpreter σ) (path : String) (m : Machine σ) :
    match consoleFault? m.workspace.environment path with
    | some fault => ∃ m', I.perform (ownConsole path) m = (.error fault, m')
    | none => ∃ m', I.perform (ownConsole path) m = (.ok (), m') := by
  let re : Reentry σ := ⟨I.dispatch, I.call, fun _ => Session.raise .tooManyCalls⟩
  let m₁ := (m.changeLog (.obtain Channel.console none)).2
  have henvironment : m₁.workspace.environment = m.workspace.environment := by
    rw [(Machine.logsOnly_changeLog m _).workspace]
  have hperform : I.perform (ownConsole path) m =
      Session.bind ((Routine.openHistory path).run re) (fun _ => Session.pure ()) m₁ := by
    rw [Interpreter.perform, ownConsole, Routine.openConsole, Routine.run_bind, Session.bind,
      Routine.run_bind]
    rfl
  have hopen := run_openHistory re path m₁
  rw [henvironment] at hopen
  rw [hperform, Session.bind]
  cases hfault : consoleFault? m.workspace.environment path with
  | some fault =>
    rw [hfault] at hopen
    obtain ⟨m', hrun⟩ := hopen
    rw [hrun]
    exact ⟨m', rfl⟩
  | none =>
    rw [hfault] at hopen
    obtain ⟨history, m', hrun⟩ := hopen
    rw [hrun]
    exact ⟨m', rfl⟩

end Launch

end CommandShell
