import CommandShell.Loop
import CommandShell.Proofs.Run.Trace

/-!
# Carrying out routines

What a routine does, one equation for each step that calls something or can fail, for one
routine after another, for the routine that runs a script, and for the loop.  A script is read
line by line while it runs; if it can be read to its end and its octets stay as they are, it does
the same as its lines one after another.
-/

namespace CommandShell

open Machine

variable {σ ρ τ : Type}

/-! ## Files -/

theorem Text.firstLine_ne_nil (b : UInt8) (rest : List UInt8) :
    Text.firstLine (b :: rest) ≠ [] := by
  rw [Text.firstLine]
  split <;> simp

theorem Disk.stream_of_whole {disk : Disk} {place : Place} (h : (disk.stream place).2 = none) :
    (disk.stream place).1 = disk.contents place := by
  unfold Disk.stream at h ⊢
  split
  · rfl
  · next hflaw =>
    rw [hflaw] at h
    cases h

/-- A file that can be read to its end delivers its lines. -/
theorem Disk.nextLine_of_whole {disk : Disk} {place : Place} (h : (disk.stream place).2 = none)
    (position : Nat) :
    disk.nextLine place position =
      if (disk.contents place).drop position = [] then .ended
      else .line (Text.firstLine ((disk.contents place).drop position)) := by
  rw [Disk.nextLine]
  dsimp only
  rw [h, stream_of_whole h]
  cases hdrop : (disk.contents place).drop position with
  | nil => rfl
  | cons b rest =>
    have hline := Text.firstLine_ne_nil b rest
    simp [hline]

theorem Text.length_firstLine_le (octets : List UInt8) :
    (Text.firstLine octets).length ≤ octets.length := by
  induction octets with
  | nil => exact Nat.le_refl 0
  | cons b rest ih =>
    rw [Text.firstLine]
    split <;> simp [ih]

theorem Disk.length_stream_le (disk : Disk) (place : Place) :
    (disk.stream place).1.length ≤ (disk.contents place).length := by
  rw [Disk.stream]
  split
  · exact Nat.le_refl _
  · exact List.length_take_le' ..

/-- A line that is read is not empty, and lies within the file. -/
theorem Disk.length_of_nextLine {disk : Disk} {place : Place} {position : Nat} {line : List UInt8}
    (h : disk.nextLine place position = .line line) :
    0 < line.length ∧ position + line.length ≤ (disk.contents place).length := by
  have hstream := disk.length_stream_le place
  have hfirst := Text.length_firstLine_le ((disk.stream place).1.drop position)
  rw [List.length_drop] at hfirst
  obtain ⟨hpos, rfl⟩ : 0 < line.length ∧
      Text.firstLine ((disk.stream place).1.drop position) = line := by
    rw [Disk.nextLine] at h
    dsimp only at h
    cases htrouble : (disk.stream place).2 with
    | none =>
      rw [htrouble] at h
      dsimp only at h
      split_ifs at h with hempty
      cases h
      exact ⟨List.length_pos_iff.2 (by simpa using hempty), rfl⟩
    | some trouble =>
      rw [htrouble] at h
      dsimp only at h
      split_ifs at h with hwhole
      cases h
      refine ⟨?_, rfl⟩
      cases hdrop : (disk.stream place).1.drop position with
      | nil =>
        have hend := List.drop_eq_nil_iff.1 hdrop
        rw [hdrop, Text.firstLine] at hwhole
        simp at hwhole
        omega
      | cons b rest => exact List.length_pos_iff.2 (Text.firstLine_ne_nil b rest)
  omega

namespace Routine

/-! ## Steps -/

/-- A change of the log is one step; the routine is shown the new log, if it was made. -/
theorem run_logging (re : Reentry σ) (change : Journal.Change)
    (next : Except Fault Journal → Routine σ ρ) (m : Machine σ) :
    (logging change next).run re m =
      (next ((m.changeLog change).1.map fun _ => (m.changeLog change).2.journal)).run re
        (m.changeLog change).2 := by
  rw [run]
  dsimp only
  obtain ⟨outcome, m'⟩ := m.changeLog change
  cases outcome <;> rfl

theorem run_dispatch (re : Reentry σ) (line : String) (next : Except Fault Int → Routine σ ρ)
    (m : Machine σ) :
    (dispatch line next).run re m =
      (next (re.dispatch line m).1).run re (re.dispatch line m).2 := rfl

theorem run_exec (re : Reentry σ) (c : CommandId) (args : List String)
    (next : Except Fault Int → List String → Routine σ ρ) (m : Machine σ) :
    (exec c args next).run re m =
      (next (re.exec c args (m.given args)).1 (re.exec c args (m.given args)).2.words).run re
        ((re.exec c args (m.given args)).2.given m.words) := rfl

theorem run_delegate (re : Reentry σ) (c : CommandId) (next : Except Fault Int → Routine σ ρ)
    (m : Machine σ) :
    (delegate c next).run re m =
      (next (re.delegate c m).1).run re ((re.delegate c m).2.given m.words) := rfl

/-- Carrying out one routine after another. -/
theorem run_bind (re : Reentry σ) (x : Routine σ ρ) (f : ρ → Routine σ τ) (m : Machine σ) :
    (x >>= f).run re m = (Session.bind (x.run re) fun r => (f r).run re) m := by
  change (x.bind f).run re m = _
  induction x generalizing m with
  | done r => rfl
  | raise fault => rfl
  | look next ih => exact ih _ m
  | put w next ih => exact ih _
  | rewrite words next ih => exact ih _
  | tell note next ih => exact ih _
  | logging change next ih =>
    rw [Routine.bind, run_logging, Session.bind, run_logging]
    exact ih _ _
  | depth next ih => exact ih _ m
  | remark text next ih => exact ih _
  | dispatch line next ih => exact ih _ _
  | exec c args next ih => exact ih _ _ _
  | delegate c next ih => exact ih _ _
  | launch program next ih => exact ih _ _

theorem run_workspace (re : Reentry σ) (m : Machine σ) :
    (workspace : Routine σ (Workspace σ)).run re m = (.ok m.workspace, m) := rfl

theorem run_ofExcept (re : Reentry σ) (outcome : Except Fault ρ) (m : Machine σ) :
    (ofExcept outcome).run re m = (outcome, m) := by
  cases outcome <;> rfl

theorem run_noted (re : Reentry σ) (x : Noted ρ) (m : Machine σ) :
    (noted x).run re m = (.ok x.value, m.tellAll x.notes) := by
  rw [noted, tellAll, Machine.tellAll]
  induction x.notes generalizing m with
  | nil => rfl
  | cons note rest ih => exact ih _

/-! ## Scripts -/

/-- The note about a line that was dispatched. -/
def resultNote (line : String) (status : Int) : Note :=
  ⟨Channel.builtins, Level.info, resultText (Text.bare line) status, none⟩

section

variable {re : Reentry σ} {soFar : Int} {line : String} {m m' : Machine σ}

/-- A line of a script is dispatched, and what follows goes on with its status taken into
account. -/
theorem run_runLine_of_ok {status : Int} (h : re.dispatch line m = (.ok status, m'))
    (rest : Int → Routine σ ρ) :
    (runLine soFar line >>= rest).run re m =
      (rest (firstFailure soFar status)).run re (m'.tell (resultNote line status)) := by
  have hline : (runLine soFar line).run re m =
      (.ok (firstFailure soFar status), m'.tell (resultNote line status)) := by
    rw [runLine, run_bind, Session.bind, dispatchLine, run_dispatch, h]
    rfl
  rw [run_bind, Session.bind, hline]

theorem run_runLine_of_error {fault : Fault} (h : re.dispatch line m = (.error fault, m'))
    (rest : Int → Routine σ ρ) :
    (runLine soFar line >>= rest).run re m = (.error fault, m') := by
  have hline : (runLine soFar line).run re m = (.error fault, m') := by
    rw [runLine, run_bind, Session.bind, dispatchLine, run_dispatch, h]
    rfl
  rw [run_bind, Session.bind, hline]

theorem runLines_cons (rest : List String) :
    (runLines soFar (line :: rest) : Routine σ Int) =
      runLine soFar line >>= fun soFar => runLines soFar rest := rfl

section

variable {path : String} {place : Place} {limit position : Nat}

theorem run_follow_of_ended (h : m.workspace.disk.nextLine place position = .ended) :
    (follow path place limit position soFar).run re m = (.ok soFar, m) := by
  cases limit with
  | zero => rfl
  | succ limit =>
    rw [follow, run_bind, Session.bind, run_workspace]
    dsimp only
    rw [h]
    rfl

theorem run_follow_of_line {octets : List UInt8}
    (h : m.workspace.disk.nextLine place position = .line octets) :
    (follow path place (limit + 1) position soFar).run re m =
      (runLine soFar (Text.lineText octets) >>=
        fun soFar => follow path place limit (position + octets.length) soFar).run re m := by
  rw [follow, run_bind, Session.bind, run_workspace]
  dsimp only
  rw [h]

/-- The note about a script that cannot be read on. -/
def breakNote (path : String) (trouble : FileTrouble) : Note :=
  ⟨Channel.builtins, Level.warning,
    "Reading " ++ path ++ " failed: " ++ FileFault.message ⟨trouble, none⟩, none⟩

theorem run_follow_of_broken {trouble : FileTrouble}
    (h : m.workspace.disk.nextLine place position = .broken trouble) :
    (follow path place (limit + 1) position soFar).run re m =
      (.ok soFar, m.tell (breakNote path trouble)) := by
  rw [follow, run_bind, Session.bind, run_workspace]
  dsimp only
  rw [h]
  rfl

end

theorem run_openScript_of_ok {path : String} {m : Machine σ} {place : Place}
    {next : Disk → Place → Routine σ Int}
    (hopen : m.workspace.disk.openForReading (Path.clean path) = .ok place) :
    (openScript path next).run re m = (next m.workspace.disk place).run re m := by
  rw [openScript, run_bind, Session.bind, run_workspace]
  dsimp only
  rw [hopen]

/-- A script that cannot be opened is not found, after a note; only a path with NUL in it is
worse. -/
theorem run_openScript_of_error {path : String} {m : Machine σ} {fault : Fault}
    {next : Disk → Place → Routine σ Int}
    (hopen : m.workspace.disk.openForReading (Path.clean path) = .error fault) :
    ∃ m', LogsOnly m m' ∧ (openScript path next).run re m =
      (if fault.isFileTrouble then .ok Status.notFound else .error fault, m') := by
  rw [openScript, run_bind, Session.bind, run_workspace]
  dsimp only
  rw [hopen]
  dsimp only
  split_ifs
  · exact ⟨_, logsOnly_tell m _, rfl⟩
  · exact ⟨m, .refl m, rfl⟩

theorem run_runScript_of_ok {path : String} {m : Machine σ} {place : Place}
    (hopen : m.workspace.disk.openForReading (Path.clean path) = .ok place) :
    (runScript path).run re m =
      (follow path place ((m.workspace.disk.contents place).length + growthLimit) 0
        Status.success).run re m := by
  rw [runScript, run_openScript_of_ok hopen]

/-- Of a file that can be read to its end, and keeps its octets while its lines are dispatched,
exactly these lines are dispatched. -/
theorem run_follow_eq {path : String} {place : Place} {octets : List UInt8} (fuel position : Nat)
    (soFar : Int) (m : Machine σ) (hfuel : (octets.drop position).length ≤ fuel)
    (hfixed : ∀ k, ((runLines soFar ((scriptLines (octets.drop position)).take k)).run re
      m).2.workspace.disk.stream place = (octets, none)) :
    (follow path place fuel position soFar).run re m =
      (runLines soFar (scriptLines (octets.drop position))).run re m := by
  induction fuel generalizing position soFar m with
  | zero =>
    rw [List.eq_nil_of_length_eq_zero (Nat.le_zero.1 hfuel)]
    rfl
  | succ fuel ih =>
    have hstream : m.workspace.disk.stream place = (octets, none) := hfixed 0
    have hwhole : (m.workspace.disk.stream place).2 = none := by rw [hstream]
    have hoctets : m.workspace.disk.contents place = octets := by
      rw [← Disk.stream_of_whole hwhole, hstream]
    have hnext := Disk.nextLine_of_whole hwhole position
    rw [hoctets] at hnext
    cases hdrop : octets.drop position with
    | nil => exact run_follow_of_ended (by rw [hnext, if_pos hdrop])
    | cons b rest =>
      have hlines : scriptLines (octets.drop position) =
          Text.lineText (Text.firstLine (b :: rest)) ::
            scriptLines (octets.drop (position + (Text.firstLine (b :: rest)).length)) := by
        rw [scriptLines, hdrop, Text.splitLines_cons, List.map_cons, ← List.drop_drop, hdrop,
          scriptLines]
      have hline := Text.firstLine_ne_nil b rest
      rw [hdrop, if_neg (List.cons_ne_nil b rest)] at hnext
      rw [← hdrop, hlines, run_follow_of_line hnext, runLines_cons]
      rw [hlines] at hfixed
      cases hresult : re.dispatch (Text.lineText (Text.firstLine (b :: rest))) m with
      | mk outcome m₁ =>
        cases outcome with
        | error fault => rw [run_runLine_of_error hresult, run_runLine_of_error hresult]
        | ok status =>
          rw [run_runLine_of_ok hresult, run_runLine_of_ok hresult]
          refine ih _ _ _ ?_ fun k => ?_
          · have hpos := List.length_pos_iff.2 hline
            rw [List.length_drop] at hfuel ⊢
            omega
          · have hk := hfixed (k + 1)
            rwa [List.take_succ_cons, runLines_cons, run_runLine_of_ok hresult] at hk

end

/-! ## The loop -/

/-- The note about a line that the loop is going to dispatch. -/
def lineNote (line : String) : Note :=
  ⟨Channel.interpreter, Level.debug, "line: " ++ line, none⟩

/-- The note about a line that the loop dispatched. -/
def statusNote (line : String) (status : Int) : Note :=
  ⟨Channel.interpreter, Level.info, resultText line status, none⟩

/-- The note at the end of the input. -/
def endNote : Note := ⟨Channel.interpreter, Level.debug, "End of input", none⟩

section

variable {re : Reentry σ} {line : String} {m m' : Machine σ}

theorem run_turn_of_ok {status : Int}
    (h : re.dispatch line (m.tell (lineNote line)) = (.ok status, m')) :
    (turn line).run re m = (.ok (), m'.tell (statusNote line status)) := by
  change (dispatchLine line >>= _).run re (m.tell (lineNote line)) = _
  rw [run_bind, Session.bind, dispatchLine, run_dispatch, h]
  rfl

theorem run_turn_of_error {fault : Fault}
    (h : re.dispatch line (m.tell (lineNote line)) = (.error fault, m')) :
    (turn line).run re m = (.error fault, m') := by
  change (dispatchLine line >>= _).run re (m.tell (lineNote line)) = _
  rw [run_bind, Session.bind, dispatchLine, run_dispatch, h]
  rfl

theorem run_loopFrom_of_stopped (h : m.workspace.stopped = true) (reads : Nat)
    (inputs : List Input) :
    (loopFrom reads inputs).run re m = (.ok ⟨Status.success, reads, inputs⟩, m) := by
  cases inputs <;>
  · rw [loopFrom, run_bind, Session.bind, run_workspace]
    dsimp only
    rw [if_pos h]
    rfl

theorem run_loopFrom_nil (h : m.workspace.stopped = false) (reads : Nat) :
    (loopFrom reads []).run re m = (.ok ⟨Status.success, reads + 1, []⟩, m.tell endNote) := by
  rw [loopFrom, run_bind, Session.bind, run_workspace]
  dsimp only
  rw [h]
  rfl

theorem run_loopFrom_of_end (h : m.workspace.stopped = false) (reads : Nat) {input : Input}
    (hinput : input.line? = none) (rest : List Input) :
    (loopFrom reads (input :: rest)).run re m =
      (.ok ⟨Status.success, reads + 1, rest⟩, m.tell endNote) := by
  rw [loopFrom, run_bind, Session.bind, run_workspace]
  dsimp only
  rw [h, hinput]
  rfl

theorem run_loopFrom_of_line (h : m.workspace.stopped = false) (reads : Nat) {input : Input}
    (hinput : input.line? = some line) (hturn : (turn line).run re m = (.ok (), m'))
    (rest : List Input) :
    (loopFrom reads (input :: rest)).run re m = (loopFrom (reads + 1) rest).run re m' := by
  rw [loopFrom, run_bind, Session.bind, run_workspace]
  dsimp only
  rw [h, hinput]
  change (turn line >>= _).run re m = _
  rw [run_bind, Session.bind, hturn]

theorem run_loopFrom_of_fault (h : m.workspace.stopped = false) (reads : Nat) {input : Input}
    (hinput : input.line? = some line) {fault : Fault}
    (hturn : (turn line).run re m = (.error fault, m')) (rest : List Input) :
    (loopFrom reads (input :: rest)).run re m = (.error fault, m') := by
  rw [loopFrom, run_bind, Session.bind, run_workspace]
  dsimp only
  rw [h, hinput]
  change (turn line >>= _).run re m = _
  rw [run_bind, Session.bind, hturn]

end

end Routine

end CommandShell
