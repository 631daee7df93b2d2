import CommandShell.Proofs.Run.Routine

/-!
# Properties that routines have step by step

The built-in commands are put together from a few kinds of steps.  They call back into the
interpreter in two ways only, by dispatching a line of a script and by handing a call over,
and pass on whatever fails there; all but two of them do not call back at all.  So a property of
routines that each of these steps has, and that one routine after another has if both have it, is
one of every built-in command.  None of them gives the run up by itself, so that the property may
ask this of the failures.
-/

namespace CommandShell

variable {σ : Type}

namespace Routine

/-- The property passes from steps that call nothing to a whole made of them; `F` says which
failures it admits, all but aborts at least.  A change of the log is made without a look at it. -/
structure Composes (F : Fault → Prop) (P : ∀ {ρ : Type}, Routine σ ρ → Prop) : Prop where
  admits : ∀ fault, fault.isAbort = false → F fault
  done : ∀ {ρ : Type} (r : ρ), P (done r)
  raise : ∀ {ρ : Type} (fault : Fault), F fault → P (raise fault : Routine σ ρ)
  look : ∀ {ρ : Type} {next : Workspace σ → Routine σ ρ}, (∀ w, P (next w)) → P (look next)
  put : ∀ {ρ : Type} (w : Workspace σ) {next : Routine σ ρ}, P next → P (put w next)
  tell : ∀ {ρ : Type} (note : Note) {next : Routine σ ρ}, P next → P (tell note next)
  logging : ∀ {ρ : Type} (change : Journal.Change) {next : Except Fault Journal → Routine σ ρ},
    (∀ j j', next (.ok j) = next (.ok j')) →
    (∀ outcome, (∀ fault, outcome = .error fault → F fault) → P (next outcome)) →
    P (logging change next)
  bind : ∀ {ρ τ : Type} {x : Routine σ ρ} {f : ρ → Routine σ τ}, P x → (∀ r, P (f r)) →
    P (x >>= f)

/-- The property passes to the whole from the two kinds of calls as well. -/
structure Closed (F : Fault → Prop) (P : ∀ {ρ : Type}, Routine σ ρ → Prop) : Prop
    extends Composes F P where
  dispatchLine : ∀ line, P (dispatchLine line)
  handOver : ∀ c, P (handOver c)

/-! ## Without calls -/

namespace Composes

variable {F : Fault → Prop} {P : ∀ {ρ : Type}, Routine σ ρ → Prop} (h : Composes F P) {ρ : Type}

include h

theorem workspace : P (Routine.workspace : Routine σ (Workspace σ)) := h.look fun _ => h.done _

theorem store : P (Routine.store : Routine σ Store) := h.look fun _ => h.done _

theorem modify (f : Workspace σ → Workspace σ) : P (Routine.modify f) :=
  h.look fun _ => h.put _ (h.done ())

theorem say (channel : String) (level : Int) (message : String) :
    P (Routine.say channel level message : Routine σ Unit) :=
  h.tell _ (h.done ())

theorem noted (x : Noted ρ) : P (Routine.noted x : Routine σ ρ) := by
  rw [Routine.noted, tellAll]
  induction x.notes with
  | nil => exact h.done _
  | cons note rest ih => exact h.tell note ih

theorem onStore (f : Store → Noted (ρ × Store)) : P (Routine.onStore f : Routine σ ρ) :=
  h.bind h.store fun _ => h.bind (h.noted _) fun _ => h.bind (h.modify _) fun _ => h.done _

theorem changeLog (change : Journal.Change) {next : Routine σ ρ} (hnext : P next) :
    P (Routine.changeLog change >>= fun _ => next) := by
  refine h.logging change (fun _ _ => rfl) fun outcome hfault => ?_
  cases outcome with
  | ok journal => exact hnext
  | error fault => exact h.raise fault (hfault fault rfl)

theorem breakOff (path reason : String) : P (Routine.breakOff path reason : Routine σ Unit) :=
  h.say ..

theorem openScript (path : String) {next : Disk → Place → Routine σ Int}
    (hnext : ∀ disk place, P (next disk place)) :
    P (Routine.openScript path next : Routine σ Int) := by
  refine h.bind h.workspace fun w => ?_
  dsimp only
  split
  · exact hnext _ _
  · next fault hopen =>
    split_ifs
    · exact h.bind (h.say ..) fun _ => h.done _
    · exact h.raise _ (h.admits fault (Disk.isAbort_onPath hopen))

theorem failScript (path : String) {fault : Fault} (hfault : fault.isAbort = false) :
    P (Routine.failScript path fault : Routine σ Int) := by
  refine h.openScript path fun disk place => ?_
  split
  · exact h.done _
  · exact h.raise _ (h.admits fault hfault)
  · exact h.bind (h.breakOff ..) fun _ => h.done _

theorem complain (message : String) : P (Builtin.complain message : Routine σ Int) :=
  h.bind (h.say ..) fun _ => h.done _

theorem find (c : CommandId) (keyword : String) :
    P (Builtin.find c keyword : Routine σ (Option CommandId)) :=
  h.bind h.store fun _ => h.noted _

theorem aliasRoutine (shell : Shell) (new target : String) :
    P (Builtin.aliasRoutine shell new target : Routine σ Int) := by
  refine h.bind (h.find _ _) fun found => ?_
  cases found with
  | none => exact h.bind (h.say ..) fun _ => h.done _
  | some c =>
    refine h.bind (h.onStore _) fun made => h.bind (h.onStore _) fun taken => ?_
    split_ifs
    · exact h.done _
    · exact h.bind (h.say ..) fun _ => h.bind (h.onStore _) fun _ => h.done _

theorem unaliasRoutine (shell : Shell) (keyword : String) :
    P (Builtin.unaliasRoutine shell keyword : Routine σ Int) := by
  refine h.bind (h.find _ _) fun found => ?_
  cases found with
  | none => exact h.bind (h.say ..) fun _ => h.done _
  | some c =>
    refine h.bind h.store fun s => ?_
    dsimp only
    split_ifs
    · exact h.bind (h.modify _) fun _ => h.done _
    · refine h.bind (h.onStore _) fun dropped => ?_
      split_ifs
      · exact h.done _
      · exact h.bind (h.modify _) fun _ => h.done _

theorem within (context : Context) (feature : String) {next : Routine σ Int} (hnext : P next) :
    P (Builtin.within context feature next : Routine σ Int) := by
  cases context with
  | interpreter => exact hnext
  | value v => exact h.raise _ (h.admits _ rfl)

theorem levelRoutine (word : String) : P (Builtin.levelRoutine word : Routine σ Int) := by
  rw [Builtin.levelRoutine]
  split
  · exact h.complain _
  · exact h.bind (h.say ..) fun _ => h.changeLog _ (h.done _)

theorem screenRoutine (word : String) : P (Builtin.screenRoutine word : Routine σ Int) := by
  unfold Builtin.screenRoutine
  exact h.bind (h.say ..) fun _ => h.changeLog _ (h.done _)

theorem fileRoutine (path : String) : P (Builtin.fileRoutine path : Routine σ Int) := by
  refine h.bind (h.say ..) fun _ => h.logging _ (fun _ _ => rfl) fun outcome hfault => ?_
  cases outcome with
  | ok journal => exact h.done _
  | error fault =>
    dsimp only
    split_ifs
    · exact h.bind (h.say ..) fun _ => h.done _
    · exact h.raise _ (hfault fault rfl)

/-- All built-in commands but those that run a script and that hand a call over. -/
theorem builtin (shell : Shell) (call : Call) {b : Builtin} (hsource : b ≠ .source)
    (hlog : b ≠ .log) : P (b.routine shell call : Routine σ Int) := by
  cases b with
  | help => exact h.within _ _ (h.bind h.store fun _ => h.bind (h.modify _) fun _ => h.done _)
  | makeAlias =>
    rw [Builtin.routine]
    split
    · exact h.within _ _ (h.aliasRoutine _ _ _)
    · exact h.complain _
  | dropAlias =>
    rw [Builtin.routine]
    split
    · exact h.within _ _ (h.unaliasRoutine _ _)
    · exact h.complain _
  | log => exact absurd rfl hlog
  | logLevel =>
    rw [Builtin.routine]
    split
    · exact h.levelRoutine _
    · exact h.complain _
  | logScreen =>
    rw [Builtin.routine]
    split
    · exact h.screenRoutine _
    · exact h.complain _
  | logFile =>
    rw [Builtin.routine]
    split
    · exact h.fileRoutine _
    · exact h.complain _
  | source => exact absurd rfl hsource
  | quit => exact h.within _ _ (h.bind (h.modify _) fun _ => h.done _)

end Composes

/-! ## With calls -/

namespace Closed

variable {F : Fault → Prop} {P : ∀ {ρ : Type}, Routine σ ρ → Prop} (h : Closed F P)

include h

theorem runLine (soFar : Int) (line : String) : P (Routine.runLine soFar line : Routine σ Int) :=
  h.bind (h.dispatchLine line) fun _ => h.bind (h.say ..) fun _ => h.done _

theorem follow (path : String) (place : Place) (limit position : Nat) (soFar : Int) :
    P (Routine.follow path place limit position soFar : Routine σ Int) := by
  induction limit generalizing position soFar with
  | zero => exact h.done soFar
  | succ limit ih =>
    refine h.bind h.workspace fun w => ?_
    split
    · exact h.done _
    · exact h.bind (h.runLine ..) fun _ => ih ..
    · exact h.bind (h.breakOff ..) fun _ => h.done _

theorem runScript (path : String) : P (Routine.runScript path : Routine σ Int) :=
  h.openScript path fun _ _ => h.follow ..

theorem logRoutine (c : CommandId) (keyword : String) :
    P (Builtin.logRoutine c keyword : Routine σ Int) := by
  refine h.bind (h.find _ _) fun found => ?_
  cases found with
  | none => exact h.bind (h.say ..) fun _ => h.done _
  | some sub => exact h.handOver sub

theorem sourceRoutine (context : Context) (path : String) :
    P (Builtin.sourceRoutine context path : Routine σ Int) := by
  cases context with
  | interpreter => exact h.runScript path
  | value v => exact h.failScript path rfl

theorem builtin (shell : Shell) (call : Call) (b : Builtin) :
    P (b.routine shell call : Routine σ Int) := by
  by_cases hsource : b = .source
  · subst hsource
    rw [Builtin.routine]
    split
    · exact h.sourceRoutine _ _
    · exact h.complain _
  · by_cases hlog : b = .log
    · subst hlog
      rw [Builtin.routine]
      split
      · exact h.logRoutine _ _
      · exact h.complain _
    · exact h.toComposes.builtin shell call hsource hlog

end Closed

end Routine

end CommandShell
