import CommandShell.Proofs.Run.Stepwise

/-!
# How runs nest

Carrying out a routine, calling a command and dispatching a line each come back to the
depth where they began, and their events are well nested.  For a routine this is an
induction on its steps, for a call one on its words and on the calls that may still be
nested, for a dispatch one on the room that is left.

The room is what the recursion runs on, but it is not there to be seen: a dispatch hands
its handlers the very same dispatch, one level further down.
-/

namespace CommandShell

open Machine

variable {σ ρ : Type}

/-! ## Routines -/

/-- What is known of the outcome of a call, and of the states before and after it. -/
abbrev Spec (σ : Type) := Machine σ → Except Fault Int × Machine σ → Prop

/-- The call is well nested. -/
def Spec.nests (limit : Int) : Spec σ := fun m result => Machine.Grows limit m result.2

/-- Both are known. -/
def Spec.and (P Q : Spec σ) : Spec σ := fun m result => P m result ∧ Q m result

/-- What is known of everything that a routine may call at a depth. -/
structure Reentry.Meets (depth : Nat) (D : String → Spec σ) (E : Spec σ) (re : Reentry σ) :
    Prop where
  dispatch : ∀ line m, m.depth = depth → D line m (re.dispatch line m)
  exec : ∀ c args m, m.depth = depth → E m (re.exec c args m)
  delegate : ∀ c m, m.depth = depth → E m (re.delegate c m)

/-- Whatever a routine calls at a depth is well nested. -/
abbrev Reentry.Nests (limit : Int) (depth : Nat) (re : Reentry σ) : Prop :=
  re.Meets depth (fun _ => Spec.nests limit) (Spec.nests limit)

theorem Reentry.Meets.mono {depth : Nat} {D D' : String → Spec σ} {E E' : Spec σ} {re : Reentry σ}
    (h : re.Meets depth D E) (hD : ∀ line m result, D line m result → D' line m result)
    (hE : ∀ m result, E m result → E' m result) : re.Meets depth D' E' where
  dispatch line m hm := hD line m _ (h.dispatch line m hm)
  exec c args m hm := hE m _ (h.exec c args m hm)
  delegate c m hm := hE m _ (h.delegate c m hm)

theorem grows_apart {α : Type} (limit : Int) (program : Session σ α) (m : Machine σ) :
    Machine.Grows limit m (program.apart m).2 :=
  ⟨rfl, [], rfl, .idle _⟩

/-- A routine is well nested if what it calls is. -/
theorem Routine.grows_run {limit : Int} {depth : Nat} {re : Reentry σ} (hre : re.Nests limit depth)
    (x : Routine σ ρ) (m : Machine σ) (hm : m.depth = depth) :
    Machine.Grows limit m (x.run re m).2 := by
  induction x generalizing m with
  | done r => exact .refl limit m
  | raise fault => exact .refl limit m
  | look next ih => exact ih _ m hm
  | put w next ih =>
    have hput : Machine.Grows limit m { m with workspace := w } := ⟨rfl, [], rfl, .idle _⟩
    exact hput.trans (ih _ hm)
  | rewrite words next ih => exact (ih (m.given words) hm).of_given
  | tell note next ih =>
    have htell := logsOnly_tell m note
    exact (htell.grows limit).trans (ih _ (htell.depth.trans hm))
  | logging change next ih =>
    have hlog := logsOnly_changeLog m change
    rw [run_logging]
    exact (hlog.grows limit).trans (ih _ _ (hlog.depth.trans hm))
  | depth next ih => exact ih _ m hm
  | remark text next ih =>
    have hremark : Machine.Grows limit m (m.record (.remark text)) :=
      ⟨rfl, [.remark text], rfl, .remark text (.idle _)⟩
    exact hremark.trans (ih _ hm)
  | dispatch line next ih =>
    have hcall := hre.dispatch line m hm
    exact hcall.trans (ih _ _ (hcall.depth.trans hm))
  | exec c args next ih =>
    have hcall := (hre.exec c args (m.given args) hm).of_given
    exact (hcall.given m.words).trans (ih _ _ _ (hcall.depth.trans hm))
  | delegate c next ih =>
    have hcall := hre.delegate c m hm
    exact (hcall.given m.words).trans (ih _ _ (hcall.depth.trans hm))
  | launch program next ih =>
    have hcall := grows_apart limit program m
    exact hcall.trans (ih _ _ (hcall.depth.trans hm))

/-- The two do the same wherever they are called at a depth. -/
structure Reentry.Agrees (depth : Nat) (re re' : Reentry σ) : Prop where
  dispatch : ∀ line m, m.depth = depth → re.dispatch line m = re'.dispatch line m
  exec : ∀ c args m, m.depth = depth → re.exec c args m = re'.exec c args m
  delegate : ∀ c m, m.depth = depth → re.delegate c m = re'.delegate c m

/-- A routine that stays at a depth cannot tell the two apart. -/
theorem Routine.run_congr {limit : Int} {depth : Nat} {re re' : Reentry σ}
    (hre : re.Nests limit depth) (hagree : re.Agrees depth re') (x : Routine σ ρ) (m : Machine σ)
    (hm : m.depth = depth) : x.run re m = x.run re' m := by
  induction x generalizing m with
  | done r => rfl
  | raise fault => rfl
  | look next ih => exact ih _ m hm
  | put w next ih => exact ih _ hm
  | rewrite words next ih => exact ih _ hm
  | tell note next ih => exact ih _ ((logsOnly_tell m note).depth.trans hm)
  | logging change next ih =>
    rw [run_logging, run_logging]
    exact ih _ _ ((logsOnly_changeLog m change).depth.trans hm)
  | depth next ih => exact ih _ m hm
  | remark text next ih => exact ih _ hm
  | dispatch line next ih =>
    rw [run_dispatch, run_dispatch, ← hagree.dispatch line m hm]
    exact ih _ _ ((hre.dispatch line m hm).depth.trans hm)
  | exec c args next ih =>
    rw [run_exec, run_exec, ← hagree.exec c args (m.given args) hm]
    exact ih _ _ _ ((hre.exec c args (m.given args) hm).depth.trans hm)
  | delegate c next ih =>
    rw [run_delegate, run_delegate, ← hagree.delegate c m hm]
    exact ih _ _ ((hre.delegate c m hm).depth.trans hm)
  | launch program next ih => exact ih _ _ hm

/-! ## Words -/

/-- Dispatches leave the words of the handler that makes them as they are. -/
def Reentry.KeepsWords (re : Reentry σ) : Prop :=
  ∀ line m, (re.dispatch line m).2.words = m.words

/-- The routine leaves the words of its call as they are. -/
def Routine.KeepsWords (x : Routine σ ρ) : Prop :=
  ∀ re : Reentry σ, re.KeepsWords → ∀ m, (x.run re m).2.words = m.words

/-- Built-in commands do. -/
theorem Routine.closed_keepsWords :
    Closed (fun _ => True) fun {ρ : Type} (x : Routine σ ρ) => x.KeepsWords where
  admits _ _ := trivial
  done _ _ _ _ := rfl
  raise _ _ _ _ _ := rfl
  look hnext re hre m := hnext _ re hre m
  put _ _ hnext re hre _ := hnext re hre _
  tell note _ hnext re hre m := (hnext re hre _).trans (logsOnly_tell m note).words
  logging change next _ hnext re hre m := by
    rw [run_logging]
    exact (hnext _ (fun _ _ => trivial) re hre _).trans (logsOnly_changeLog m change).words
  bind {ρ τ x f} hx hf re hre m := by
    have hfirst := hx re hre m
    rw [run_bind, Session.bind]
    cases hrun : x.run re m with
    | mk outcome m' =>
      rw [hrun] at hfirst
      cases outcome with
      | ok r => exact (hf r re hre m').trans hfirst
      | error fault => exact hfirst
  dispatchLine line re hre m := by
    rw [dispatchLine, run_dispatch, run_ofExcept]
    exact hre line m
  handOver c re _ m := by
    rw [handOver, run_delegate, run_ofExcept, words_given]

/-- If the call fails, a word is left of those that the handler was given. -/
def Spec.leavesWord : Spec σ := fun _ result =>
  ∀ fault, result.1 = .error fault → result.2.words ≠ []

namespace Interpreter

variable (I : Interpreter σ)

/-- A handler of the application that fails leaves a word of those that it was given.  The first
one is the keyword that the command was called by, and the failure is reported under it. -/
def LeavesWord : Prop :=
  ∀ name call (re : Reentry σ) m, re.KeepsWords → m.words = call.args → call.args ≠ [] →
    Spec.leavesWord m ((I.handlers name call).run re m)

theorem leavesWord_of_keepsWords {I : Interpreter σ}
    (h : ∀ name call, (I.handlers name call).KeepsWords) : I.LeavesWord := by
  intro name call re m hre hwords hargs _ _
  rwa [h name call re hre m, hwords]

/-! ## Calls -/

/-- What a call does: nothing, if the command has no handler; otherwise the handler is
called and comes back, and what happens between is well nested. -/
def IsCall (limit : Int) (depth : Nat) (m : Machine σ) (result : Except Fault Int × Machine σ) :
    Prop :=
  result = (.ok 0, m) ∨
    ∃ call inner, call.depth = depth ∧ Activity limit depth inner ∧ result.2.depth = depth ∧
      result.2.trace =
        (.called call :: (inner ++ [.returned call result.1 result.2.words])).reverse ++ m.trace

theorem IsCall.grows {limit : Int} {depth : Nat} {m : Machine σ}
    {result : Except Fault Int × Machine σ} (h : IsCall limit depth m result)
    (hm : m.depth = depth) : Machine.Grows limit m result.2 := by
  subst hm
  obtain rfl | ⟨call, inner, hdepth, hinner, hdepth', htrace⟩ := h
  · exact .refl limit m
  · exact ⟨hdepth', _, htrace, .call call result.1 _ hdepth hinner (.idle _)⟩

/-- What a call offers its handler to hand over to: a call with the words but the first. -/
def handOver (dispatch : String → Session σ Int) (exec : CommandId → List String → Session σ Int)
    (args : List String) : CommandId → Session σ Int :=
  match args with
  | [] => fun _ => Session.raise .tooManyCalls
  | _ :: rest => I.callWith dispatch exec rest

/-- The call of a command's handler with words. -/
def callOf (m : Machine σ) (c : CommandId) (handler : Handler) (args : List String) : Call :=
  ⟨c, (m.workspace.store.command c).keyword, handler, (m.workspace.store.command c).context, args,
    m.depth⟩

/-- A handler is called, and comes back. -/
def answer (re : Reentry σ) (call : Call) : Session σ Int := fun m =>
  let result := (I.routineFor call).run re (m.taking call)
  (result.1, result.2.returning call result.1)

section

variable {limit : Int} {depth : Nat} {dispatch : String → Session σ Int}
  {exec : CommandId → List String → Session σ Int} {args : List String} {c : CommandId}
  {m : Machine σ} {handler : Handler}

theorem callWith_of_none (h : (m.workspace.store.command c).handler = none) :
    I.callWith dispatch exec args c m = (.ok 0, m) := by
  cases args <;> simp [callWith, h]

theorem callWith_of_some (h : (m.workspace.store.command c).handler = some handler) :
    I.callWith dispatch exec args c m =
      I.answer ⟨dispatch, exec, I.handOver dispatch exec args⟩ (callOf m c handler args) m := by
  cases args <;> simp [callWith, h, callOf, handOver, answer, taking, returning]

/-- A handler that is called comes back, and what happens between is well nested. -/
theorem isCall_answer {re : Reentry σ} (hre : re.Nests limit depth) {call : Call}
    (hcall : call.depth = depth) (hm : m.depth = depth) :
    IsCall limit depth m (I.answer re call m) := by
  obtain ⟨hdepth, inner, htrace, hinner⟩ :=
    Routine.grows_run hre (I.routineFor call) (m.taking call) hm
  refine .inr ⟨call, inner, hcall, hm ▸ hinner, hdepth.trans hm, ?_⟩
  simp [answer, returning, htrace, record]

theorem since_answer {re : Reentry σ} (hre : re.Nests limit m.depth) (call : Call) :
    m.since (I.answer re call m).2 = .called call ::
      ((m.taking call).since ((I.routineFor call).run re (m.taking call)).2 ++
        [.returned call (I.answer re call m).1 (I.answer re call m).2.words]) := by
  have hrun := Routine.grows_run hre (I.routineFor call) (m.taking call) rfl
  apply since_eq
  rw [answer, returning, trace_record, hrun.since.1]
  simp [record]

end

/-! ## Lines -/

/-- The state in which a line begins to run. -/
def enter (line : String) (m : Machine σ) : Machine σ :=
  { m with depth := m.depth + 1 }.record (.entered (m.depth + 1) line)

/-- What a dispatch answers when its line has run. -/
def leave (line : String) (result : Except Fault Int × Machine σ) : Except Fault Int × Machine σ :=
  (result.1, { result.2.record (.left result.2.depth line result.1) with
    depth := result.2.depth - 1 })

/-- The state in which a line is looked at. -/
def opening (line : String) (m : Machine σ) : Machine σ :=
  (enter line m).tell ⟨Channel.interpreter, Level.verbose,
    "depth: " ++ toString (m.depth + 1) ++ " line: " ++ Text.quoted line, none⟩

theorem nested_eq_leave (line : String) (body : Session σ Int) (m : Machine σ) :
    nested line body m = leave line (body (opening line m)) := rfl

theorem logsOnly_opening (line : String) (m : Machine σ) :
    LogsOnly (enter line m) (opening line m) := logsOnly_tell _ _

/-- A line runs between the two, after a note in the log. -/
theorem nested_eq (line : String) (body : Session σ Int) (m : Machine σ) :
    ∃ m₁, LogsOnly (enter line m) m₁ ∧ nested line body m = leave line (body m₁) :=
  ⟨opening line m, logsOnly_opening line m, nested_eq_leave line body m⟩

theorem guarded_eq (own : List String) (result : Except Fault Int × Machine σ) :
    ∃ m₁, LogsOnly (result.2.given own) m₁ ∧
      guarded own result = (settled result.2.words result.1, m₁) := by
  obtain ⟨outcome, m⟩ := result
  cases outcome with
  | ok status => exact ⟨_, .refl _, rfl⟩
  | error fault =>
    rw [guarded, settled]
    split
    · exact ⟨_, .refl _, rfl⟩
    · dsimp only
      cases m.words with
      | nil => exact ⟨_, .refl _, rfl⟩
      | cons word rest => exact ⟨_, logsOnly_tell _ _, rfl⟩

/-- The command that a line calls, with its words; or the status of a line that calls none. -/
def resolve (line : String) (m : Machine σ) :
    Except Int (CommandId × List String) × Machine σ :=
  let words := I.shell.rules.tokenize line
  let m := m.tellAll words.notes
  match words.value with
  | [] =>
    (.error Status.success,
      m.tell ⟨Channel.interpreter, Level.verbose, "Ignoring empty line", none⟩)
  | word :: rest =>
    let found := m.workspace.store.find I.shell.root word
    let m := m.tellAll found.notes
    match found.value with
    | none =>
      (.error Status.notFound,
        m.tell ⟨Channel.interpreter, Level.warning, "Command " ++ word ++ " not found", none⟩)
    | some c => (.ok (c, word :: rest), m)

theorem runLine_eq (dispatch : String → Session σ Int) (line : String) (m : Machine σ) :
    I.runLine dispatch line m =
      match I.resolve line m with
      | (.error status, m₁) => (.ok status, m₁)
      | (.ok (c, args), m₁) => guarded m₁.words (I.callAt dispatch callLimit c args m₁) := by
  simp only [runLine, resolve]
  cases (I.shell.rules.tokenize line).value with
  | nil => rfl
  | cons word rest =>
    dsimp only
    cases ((m.tellAll (I.shell.rules.tokenize line).notes).workspace.store.find
        I.shell.root word).value <;> rfl

theorem logsOnly_resolve (line : String) (m : Machine σ) : LogsOnly m (I.resolve line m).2 := by
  have hwords := logsOnly_tellAll m (I.shell.rules.tokenize line).notes
  simp only [resolve]
  cases (I.shell.rules.tokenize line).value with
  | nil => exact hwords.trans (logsOnly_tell _ _)
  | cons word rest =>
    have hfound := hwords.trans (logsOnly_tellAll _
      ((m.tellAll (I.shell.rules.tokenize line).notes).workspace.store.find
        I.shell.root word).notes)
    dsimp only
    cases ((m.tellAll (I.shell.rules.tokenize line).notes).workspace.store.find
        I.shell.root word).value with
    | none => exact hfound.trans (logsOnly_tell _ _)
    | some c => exact hfound

/-- A line that calls a command has a word. -/
theorem args_resolve {line : String} {m m₁ : Machine σ} {c : CommandId} {args : List String}
    (h : I.resolve line m = (.ok (c, args), m₁)) : args ≠ [] := by
  simp only [resolve] at h
  cases hwords : (I.shell.rules.tokenize line).value with
  | nil =>
    rw [hwords] at h
    cases h
  | cons word rest =>
    rw [hwords] at h
    dsimp only at h
    cases hfound : ((m.tellAll (I.shell.rules.tokenize line).notes).workspace.store.find
        I.shell.root word).value with
    | none =>
      rw [hfound] at h
      cases h
    | some d =>
      rw [hfound] at h
      cases h
      exact List.cons_ne_nil _ _

/-- A line is answered at once, or a command is called for it with its words; which of the two
does not depend on how handlers dispatch. -/
theorem runLine_cases (line : String) (m : Machine σ) :
    (∃ status m₁, LogsOnly m m₁ ∧ ∀ dispatch, I.runLine dispatch line m = (.ok status, m₁)) ∨
    ∃ c args m₁, LogsOnly m m₁ ∧ args ≠ [] ∧ ∀ dispatch,
      I.runLine dispatch line m = guarded m₁.words (I.callAt dispatch callLimit c args m₁) := by
  have hlogs := I.logsOnly_resolve line m
  have hrun := fun dispatch => I.runLine_eq dispatch line m
  cases hresolve : I.resolve line m with
  | mk found m₁ =>
    rw [hresolve] at hlogs
    simp only [hresolve] at hrun
    cases found with
    | error status => exact .inl ⟨status, m₁, hlogs, hrun⟩
    | ok target => exact .inr ⟨target.1, target.2, m₁, hlogs, I.args_resolve hresolve, hrun⟩

theorem words_nested {line : String} {body : Session σ Int} (m : Machine σ)
    (h : ∀ m', (body m').2.words = m'.words) : (nested line body m).2.words = m.words := by
  obtain ⟨m₁, hm₁, heq⟩ := nested_eq line body m
  rw [heq]
  exact (h m₁).trans hm₁.words

theorem words_runLine (dispatch : String → Session σ Int) (line : String) (m : Machine σ) :
    (I.runLine dispatch line m).2.words = m.words := by
  obtain ⟨status, m₁, hm₁, hrun⟩ | ⟨c, args, m₁, hm₁, -, hrun⟩ := I.runLine_cases line m
  · rw [hrun]
    exact hm₁.words
  · obtain ⟨m₂, hm₂, hguarded⟩ := guarded_eq m₁.words (I.callAt dispatch callLimit c args m₁)
    rw [hrun, hguarded]
    exact hm₂.words.trans hm₁.words

theorem words_dispatchWithin (room : Nat) (line : String) (m : Machine σ) :
    (I.dispatchWithin room line m).2.words = m.words := by
  cases room with
  | zero => exact words_nested m fun m' => (logsOnly_tell m' _).words
  | succ room => exact words_nested m (I.words_runLine _ line)

/-- A handler that dispatches a line has the same words afterwards. -/
theorem words_dispatch (line : String) (m : Machine σ) :
    (I.dispatch line m).2.words = m.words :=
  I.words_dispatchWithin _ line m

section

variable {I} {dispatch : String → Session σ Int} {args : List String} (h : I.LeavesWord)
  (hdispatch : ∀ line m, (dispatch line m).2.words = m.words) (hargs : args ≠ [])

include h hdispatch hargs

theorem LeavesWord.callWith (exec : CommandId → List String → Session σ Int) (c : CommandId)
    (m : Machine σ) : Spec.leavesWord m (I.callWith dispatch exec args c m) := by
  intro fault hfault
  cases hhandler : (m.workspace.store.command c).handler with
  | none =>
    rw [I.callWith_of_none hhandler] at hfault
    cases hfault
  | some handler =>
    rw [I.callWith_of_some hhandler] at hfault ⊢
    cases handler with
    | builtin b =>
      have hwords := Routine.closed_keepsWords.builtin I.shell (callOf m c (.builtin b) args) b
        ⟨dispatch, exec, I.handOver dispatch exec args⟩ hdispatch
        (m.taking (callOf m c (.builtin b) args))
      exact fun hnil => hargs (hwords.symm.trans hnil)
    | custom name =>
      exact h name (callOf m c (.custom name) args) _ (m.taking _) hdispatch rfl hargs fault hfault

/-- A call that fails leaves a word, if it had one. -/
theorem LeavesWord.callAt (nested : Nat) (c : CommandId) (m : Machine σ) :
    Spec.leavesWord m (I.callAt dispatch nested c args m) := by
  cases nested <;> exact h.callWith hdispatch hargs _ c m

end

section

variable {limit : Int} {line : String} {m m₁ m₂ : Machine σ} {status : Int}
  {result : Except Fault Int × Machine σ}

theorem depth_leave (hm₁ : m₁.depth = m.depth + 1) (outcome : Except Fault Int) :
    (leave line (outcome, m₁)).2.depth = m.depth := by
  simp [leave, hm₁]

theorem trace_leave {events : List Event} (hm₁ : m₁.depth = m.depth + 1)
    (htrace : m₁.trace = events.reverse ++ (enter line m).trace) (outcome : Except Fault Int) :
    (leave line (outcome, m₁)).2.trace = (.entered (m.depth + 1) line ::
      (events ++ [.left (m.depth + 1) line outcome])).reverse ++ m.trace := by
  simp [leave, hm₁, htrace, enter]

theorem since_answered (hm₁ : LogsOnly (enter line m) m₁) (outcome : Except Fault Int) :
    m.since (leave line (outcome, m₁)).2 =
      [.entered (m.depth + 1) line, .left (m.depth + 1) line outcome] := by
  have htrace : m₁.trace = [].reverse ++ (enter line m).trace := hm₁.trace
  exact since_eq (trace_leave hm₁.depth htrace outcome)

theorem since_dispatched (hm₁ : LogsOnly (enter line m) m₁) (hcall : Grows limit m₁ result.2)
    {own : List String} (hm₂ : LogsOnly (result.2.given own) m₂) (outcome : Except Fault Int) :
    m.since (leave line (outcome, m₂)).2 = .entered (m.depth + 1) line ::
      (m₁.since result.2 ++ [.left (m.depth + 1) line outcome]) := by
  refine since_eq (trace_leave (hm₂.depth.trans (hcall.depth.trans hm₁.depth)) ?_ outcome)
  rw [hm₂.trace, trace_given, hcall.since.1, hm₁.trace]

/-- What a dispatch does. -/
def IsDispatch (limit : Int) (line : String) : Spec σ := fun m result =>
  result.2.depth = m.depth ∧ ∃ events, result.2.trace = events.reverse ++ m.trace ∧
    Dispatched limit m.depth line result.1 events

theorem IsDispatch.grows (h : IsDispatch limit line m result) : Grows limit m result.2 := by
  obtain ⟨hdepth, events, htrace, hevents⟩ := h
  exact ⟨hdepth, events, htrace, hevents.activity⟩

theorem IsDispatch.since (h : IsDispatch limit line m result) :
    Dispatched limit m.depth line result.1 (m.since result.2) := by
  obtain ⟨-, events, htrace, hevents⟩ := h
  rwa [since_eq htrace]

theorem isDispatch_answered (hm₁ : LogsOnly (enter line m) m₁)
    (hstatus : limit ≤ m.depth → status = Status.recursionLimit) :
    IsDispatch limit line m (leave line (.ok status, m₁)) := by
  have htrace : m₁.trace = [].reverse ++ (enter line m).trace := hm₁.trace
  refine ⟨depth_leave hm₁.depth _, _, trace_leave hm₁.depth htrace _, ?_⟩
  by_cases hlimit : limit ≤ m.depth
  · rw [hstatus hlimit]
    exact .refused hlimit
  · exact .answered status (by omega)

theorem isDispatch_called (hlimit : m.depth < limit) (hm₁ : LogsOnly (enter line m) m₁)
    (hcall : IsCall limit (m.depth + 1) m₁ result)
    (hm₂ : LogsOnly (result.2.given m₁.words) m₂) :
    IsDispatch limit line m (leave line (settled result.2.words result.1, m₂)) := by
  obtain rfl | ⟨call, inner, hcall, hinner, hdepth, htrace⟩ := hcall
  · exact isDispatch_answered (hm₁.trans hm₂) (by omega)
  · refine ⟨depth_leave (hm₂.depth.trans hdepth) _, _, trace_leave (hm₂.depth.trans hdepth)
      ((hm₂.trace.trans htrace).trans (by rw [hm₁.trace])) _, ?_⟩
    have hcalled : Dispatched limit m.depth line _ _ :=
      .called call result.1 result.2.words hlimit hcall hinner
    simpa [leave] using hcalled

end

/-! ## Contracts -/

/-- What has to be shown of an interpreter to know `D` of its dispatches and `E` of its
calls.  Each clause is about one step; of the steps below it, it may be assumed that they
are well nested and that `D` and `E` hold of them.

A call fails because calls are nested too deeply without a dispatch between, does nothing for
want of a handler, or calls one; a dispatch answers without a call, or calls a command. -/
structure Contract (D : String → Spec σ) (E : Spec σ) : Prop where
  tooMany : ∀ m, E m (.error .tooManyCalls, m)
  silent : ∀ m, E m (.ok 0, m)
  called : ∀ re m c handler args, (m.workspace.store.command c).handler = some handler →
    re.Meets m.depth (fun line => (IsDispatch I.shell.maxDepth line).and (D line))
      ((Spec.nests I.shell.maxDepth).and E) →
    E m (I.answer re (callOf m c handler args) m)
  answered : ∀ line m m₁ status, LogsOnly (enter line m) m₁ →
    (I.shell.maxDepth ≤ m.depth → status = Status.recursionLimit) →
    D line m (leave line (.ok status, m₁))
  dispatched : ∀ line m m₁ result m₂, m.depth < I.shell.maxDepth → LogsOnly (enter line m) m₁ →
    IsCall I.shell.maxDepth (m.depth + 1) m₁ result → E m₁ result →
    LogsOnly (result.2.given m₁.words) m₂ → (I.LeavesWord → Spec.leavesWord m₁ result) →
    D line m (leave line (settled result.2.words result.1, m₂))

namespace Contract

variable {I} {D : String → Spec σ} {E : Spec σ} (C : I.Contract D E)

include C

theorem callWith {depth : Nat} {dispatch : String → Session σ Int}
    {exec : CommandId → List String → Session σ Int} {args : List String}
    (hre : Reentry.Meets depth (fun line => (IsDispatch I.shell.maxDepth line).and (D line))
      ((Spec.nests I.shell.maxDepth).and E) ⟨dispatch, exec, I.handOver dispatch exec args⟩)
    (c : CommandId) (m : Machine σ) (hm : m.depth = depth) :
    IsCall I.shell.maxDepth depth m (I.callWith dispatch exec args c m) ∧
      E m (I.callWith dispatch exec args c m) := by
  cases hhandler : (m.workspace.store.command c).handler with
  | none =>
    rw [I.callWith_of_none hhandler]
    exact ⟨.inl rfl, C.silent m⟩
  | some handler =>
    rw [I.callWith_of_some hhandler]
    subst hm
    have hnests := hre.mono (fun _ _ _ h => h.1.grows) (fun _ _ h => h.1)
    exact ⟨I.isCall_answer hnests rfl rfl, C.called _ m c handler args hhandler hre⟩

/-- What a call offers its handler meets the contract: the recursion of the calls that are
handed over is on the words. -/
theorem offered {depth : Nat} {dispatch : String → Session σ Int}
    {exec : CommandId → List String → Session σ Int}
    (hdispatch : ∀ line m, m.depth = depth →
      (IsDispatch I.shell.maxDepth line).and (D line) m (dispatch line m))
    (hexec : ∀ c args m, m.depth = depth →
      (Spec.nests I.shell.maxDepth).and E m (exec c args m)) (args : List String) :
    Reentry.Meets depth (fun line => (IsDispatch I.shell.maxDepth line).and (D line))
      ((Spec.nests I.shell.maxDepth).and E) ⟨dispatch, exec, I.handOver dispatch exec args⟩ := by
  induction args with
  | nil => exact ⟨hdispatch, hexec, fun _ m _ => ⟨.refl _ m, C.tooMany m⟩⟩
  | cons word rest ih =>
    refine ⟨hdispatch, hexec, fun c m hm => ?_⟩
    obtain ⟨hcall, hE⟩ := C.callWith ih c m hm
    exact ⟨hcall.grows hm, hE⟩

theorem callAt {depth : Nat} {dispatch : String → Session σ Int}
    (hdispatch : ∀ line m, m.depth = depth →
      (IsDispatch I.shell.maxDepth line).and (D line) m (dispatch line m))
    (nested : Nat) (c : CommandId) (args : List String) (m : Machine σ) (hm : m.depth = depth) :
    IsCall I.shell.maxDepth depth m (I.callAt dispatch nested c args m) ∧
      E m (I.callAt dispatch nested c args m) := by
  induction nested generalizing c args m with
  | zero =>
    refine C.callWith (C.offered hdispatch (fun c args m hm => ?_) args) c m hm
    exact ⟨.refl _ m, C.tooMany m⟩
  | succ nested ih =>
    refine C.callWith (C.offered hdispatch (fun c args m hm => ?_) args) c m hm
    obtain ⟨hcall, hE⟩ := ih c args m hm
    exact ⟨hcall.grows hm, hE⟩

/-- The recursion of dispatches is on the room that is left. -/
theorem dispatchWithin (room : Nat) (line : String) (m : Machine σ)
    (hroom : I.room m.depth = room) :
    (IsDispatch I.shell.maxDepth line).and (D line) m (I.dispatchWithin room line m) := by
  induction room generalizing line m with
  | zero =>
    have hlimit : I.shell.maxDepth ≤ m.depth := by
      simp only [Interpreter.room] at hroom
      omega
    obtain ⟨m₁, hm₁, heq⟩ := nested_eq line I.refuse m
    rw [Interpreter.dispatchWithin, heq]
    have hrefuse : LogsOnly (enter line m) (I.refuse m₁).2 := hm₁.trans (logsOnly_tell m₁ _)
    exact ⟨isDispatch_answered hrefuse fun _ => rfl, C.answered line m _ _ hrefuse fun _ => rfl⟩
  | succ room ih =>
    have hlimit : m.depth < I.shell.maxDepth ∧ I.room (m.depth + 1) = room := by
      simp only [Interpreter.room] at hroom ⊢
      omega
    obtain ⟨m₁, hm₁, heq⟩ := nested_eq line (I.runLine (I.dispatchWithin room) line) m
    have hdepth : m₁.depth = m.depth + 1 := hm₁.depth
    rw [Interpreter.dispatchWithin, heq]
    obtain ⟨status, m₂, hm₂, hrun⟩ | ⟨c, args, m₂, hm₂, hargs, hrun⟩ :=
      I.runLine_cases line m₁
    · rw [hrun]
      have hanswer := hm₁.trans hm₂
      have hstatus : I.shell.maxDepth ≤ m.depth → status = Status.recursionLimit := by omega
      exact ⟨isDispatch_answered hanswer hstatus, C.answered line m _ _ hanswer hstatus⟩
    · obtain ⟨hcall, hE⟩ := C.callAt (fun line m' hm' => ih line m' (hm' ▸ hlimit.2))
        callLimit c args m₂ (hm₂.depth.trans hdepth)
      obtain ⟨m₃, hm₃, hguarded⟩ :=
        guarded_eq m₂.words (I.callAt (I.dispatchWithin room) callLimit c args m₂)
      rw [hrun, hguarded]
      exact ⟨isDispatch_called hlimit.1 (hm₁.trans hm₂) hcall hm₃,
        C.dispatched line m m₂ _ m₃ hlimit.1 (hm₁.trans hm₂) hcall hE hm₃ fun hleaves =>
          hleaves.callAt (I.words_dispatchWithin room) hargs callLimit c m₂⟩

/-- What a contract says of every dispatch. -/
theorem dispatch (line : String) (m : Machine σ) : D line m (I.dispatch line m) :=
  (C.dispatchWithin _ line m rfl).2

/-- What a contract says of everything that a routine can call from outside. -/
theorem perform (depth : Nat) :
    Reentry.Meets depth (fun line => (IsDispatch I.shell.maxDepth line).and (D line))
      ((Spec.nests I.shell.maxDepth).and E)
      ⟨I.dispatch, I.call, fun _ => Session.raise .tooManyCalls⟩ where
  dispatch line m _ := C.dispatchWithin _ line m rfl
  exec c args m _ := by
    obtain ⟨hcall, hE⟩ :=
      C.callAt (fun line m _ => C.dispatchWithin _ line m rfl) callLimit c args m rfl
    exact ⟨hcall.grows rfl, hE⟩
  delegate _ m _ := ⟨.refl _ m, C.tooMany m⟩

end Contract

theorem contract_trivial : I.Contract (fun _ _ _ => True) (fun _ _ => True) :=
  ⟨fun _ => trivial, fun _ => trivial, fun _ _ _ _ _ _ _ => trivial, fun _ _ _ _ _ _ => trivial,
    fun _ _ _ _ _ _ _ _ _ _ _ => trivial⟩

/-- Every dispatch is well nested. -/
theorem isDispatch_dispatch (line : String) (m : Machine σ) :
    IsDispatch I.shell.maxDepth line m (I.dispatch line m) :=
  (I.contract_trivial.dispatchWithin _ line m rfl).1

/-! ## The room that is left cannot be seen -/

section

variable {depth : Nat} {dispatch dispatch' : String → Session σ Int}
  {exec exec' : CommandId → List String → Session σ Int}

theorem callWith_congr {args : List String}
    (hre : Reentry.Nests I.shell.maxDepth depth ⟨dispatch, exec, I.handOver dispatch exec args⟩)
    (hagree : Reentry.Agrees depth ⟨dispatch, exec, I.handOver dispatch exec args⟩
      ⟨dispatch', exec', I.handOver dispatch' exec' args⟩)
    (c : CommandId) (m : Machine σ) (hm : m.depth = depth) :
    I.callWith dispatch exec args c m = I.callWith dispatch' exec' args c m := by
  cases hhandler : (m.workspace.store.command c).handler with
  | none => rw [I.callWith_of_none hhandler, I.callWith_of_none hhandler]
  | some handler =>
    rw [I.callWith_of_some hhandler, I.callWith_of_some hhandler, answer, answer,
      Routine.run_congr hre hagree _ (m.taking _) hm]

variable
  (hdispatch : ∀ line m, m.depth = depth → IsDispatch I.shell.maxDepth line m (dispatch line m))
  (hsame : ∀ line m, m.depth = depth → dispatch line m = dispatch' line m)

include hdispatch

theorem nests_offered
    (hexec : ∀ c args m, m.depth = depth → Grows I.shell.maxDepth m (exec c args m).2)
    (args : List String) :
    Reentry.Nests I.shell.maxDepth depth ⟨dispatch, exec, I.handOver dispatch exec args⟩ :=
  (I.contract_trivial.offered (fun line m hm => ⟨hdispatch line m hm, trivial⟩)
    (fun c args m hm => ⟨hexec c args m hm, trivial⟩) args).mono (fun _ _ _ h => h.1.grows)
    (fun _ _ h => h.1)

include hsame

theorem agrees_offered
    (hexec : ∀ c args m, m.depth = depth → Grows I.shell.maxDepth m (exec c args m).2)
    (hsame' : ∀ c args m, m.depth = depth → exec c args m = exec' c args m) (args : List String) :
    Reentry.Agrees depth ⟨dispatch, exec, I.handOver dispatch exec args⟩
      ⟨dispatch', exec', I.handOver dispatch' exec' args⟩ := by
  induction args with
  | nil => exact ⟨hsame, hsame', fun _ _ _ => rfl⟩
  | cons word rest ih =>
    exact ⟨hsame, hsame', I.callWith_congr (I.nests_offered hdispatch hexec rest) ih⟩

/-- A call cannot tell two ways to dispatch apart that do the same at its depth. -/
theorem callAt_congr (nested : Nat) (c : CommandId) (args : List String) (m : Machine σ)
    (hm : m.depth = depth) :
    I.callAt dispatch nested c args m = I.callAt dispatch' nested c args m := by
  have hcongr : ∀ exec exec' : CommandId → List String → Session σ Int,
      (∀ c args m, m.depth = depth → Grows I.shell.maxDepth m (exec c args m).2) →
      (∀ c args m, m.depth = depth → exec c args m = exec' c args m) → ∀ c args m, m.depth = depth →
      I.callWith dispatch exec args c m = I.callWith dispatch' exec' args c m :=
    fun _ _ hexec hsame' c args m hm => I.callWith_congr (I.nests_offered hdispatch hexec args)
      (I.agrees_offered hdispatch hsame hexec hsame' args) c m hm
  induction nested generalizing c args m with
  | zero => exact hcongr _ _ (fun _ _ m _ => .refl _ m) (fun _ _ _ _ => rfl) c args m hm
  | succ nested ih =>
    refine hcongr _ _ (fun c args m hm => ?_) ih c args m hm
    exact (I.contract_trivial.callAt (fun line m hm => ⟨hdispatch line m hm, trivial⟩)
      nested c args m hm).1.grows hm

theorem runLine_congr (line : String) (m : Machine σ) (hm : m.depth = depth) :
    I.runLine dispatch line m = I.runLine dispatch' line m := by
  obtain ⟨status, m₁, -, hrun⟩ | ⟨c, args, m₁, hm₁, -, hrun⟩ := I.runLine_cases line m
  · rw [hrun, hrun]
  · rw [hrun, hrun, I.callAt_congr hdispatch hsame callLimit c args m₁ (hm₁.depth.trans hm)]

end

/-- A dispatch counts one level up, refuses the line or runs it, and counts down again.
The handlers that it calls dispatch in the same way. -/
theorem dispatch_eq (line : String) (m : Machine σ) :
    I.dispatch line m =
      nested line (if m.depth < I.shell.maxDepth then I.runLine I.dispatch line else I.refuse)
        m := by
  rw [dispatch]
  split_ifs with hlimit
  · obtain ⟨room, hroom⟩ : ∃ room, I.room m.depth = room + 1 :=
      ⟨I.room m.depth - 1, by simp only [room]; omega⟩
    have hbelow : I.room (m.depth + 1) = room := by
      simp only [Interpreter.room] at hroom ⊢
      omega
    have hrun : ∀ m' : Machine σ, m'.depth = m.depth + 1 →
        I.runLine (I.dispatchWithin room) line m' = I.runLine I.dispatch line m' := by
      refine fun m' hm' => I.runLine_congr (fun line m'' hm'' => ?_) (fun line m'' hm'' => ?_)
        line m' hm'
      · exact (I.contract_trivial.dispatchWithin room line m'' (hm'' ▸ hbelow)).1
      · rw [dispatch, hm'', hbelow]
    rw [hroom, dispatchWithin, nested, nested]
    dsimp only
    rw [hrun _ (logsOnly_tell _ _).depth]
  · have hroom : I.room m.depth = 0 := by
      simp only [room]
      omega
    rw [hroom, dispatchWithin]

end Interpreter

end CommandShell
