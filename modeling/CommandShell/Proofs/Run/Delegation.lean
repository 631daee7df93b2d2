import CommandShell.Proofs.Line.Descent
import CommandShell.Proofs.Run.Nesting

/-!
# Calls that are handed over

A command may hand a call over to the sub-command that the next word names, together with the
words from there on, and that one may hand it over again.  The dispatcher itself looks up the
first word only; so a line is resolved step by step, by one handler calling the other.  The
commands that are met on the way are those that the words name when they are followed down
the tree at once.  A call ends at the first of them that does not hand it over, or where the
words end or name nothing.
-/

namespace CommandShell

open Machine

variable {σ : Type}

/-- The command hands its calls over to the sub-command that the next word names. -/
def Store.delegates (s : Store) (c : CommandId) : Bool :=
  decide ((s.command c).handler = some (.builtin .log))

/-! ## Calls within calls -/

/-- A command that handed its call over comes back, with its own words again. -/
def Machine.handedBack (m : Machine σ) (call : Call) (outcome : Except Fault Int) : Machine σ :=
  (m.given call.args).returning call outcome

/-- Handlers are called, each from within the one before. -/
def Machine.callAll (calls : List Call) (m : Machine σ) : Machine σ :=
  calls.foldl Machine.taking m

/-- They come back with what the innermost answered, the innermost first. -/
def Machine.returnAll (calls : List Call) (outcome : Except Fault Int) (m : Machine σ) :
    Machine σ :=
  calls.foldr (fun call m => m.handedBack call outcome) m

/-- The events of calls within calls, around those of the innermost.  All but that one leave their
words as they were. -/
def enclosed (calls : List Call) (outcome : Except Fault Int) (inner : List Event) : List Event :=
  calls.map .called ++ (inner ++ calls.reverse.map fun call => .returned call outcome call.args)

namespace Machine

theorem callAll_cons (call : Call) (calls : List Call) (m : Machine σ) :
    m.callAll (call :: calls) = (m.taking call).callAll calls := rfl

theorem returnAll_cons (call : Call) (calls : List Call) (outcome : Except Fault Int)
    (m : Machine σ) :
    m.returnAll (call :: calls) outcome = (m.returnAll calls outcome).handedBack call outcome :=
  rfl

theorem depth_callAll (calls : List Call) (m : Machine σ) :
    (m.callAll calls).depth = m.depth := by
  induction calls generalizing m with
  | nil => rfl
  | cons call calls ih => exact ih (m.taking call)

theorem workspace_callAll (calls : List Call) (m : Machine σ) :
    (m.callAll calls).workspace = m.workspace := by
  induction calls generalizing m with
  | nil => rfl
  | cons call calls ih => exact ih (m.taking call)

theorem trace_callAll (calls : List Call) (m : Machine σ) :
    (m.callAll calls).trace = (calls.map .called).reverse ++ m.trace := by
  induction calls generalizing m with
  | nil => rfl
  | cons call calls ih =>
    rw [callAll_cons, ih]
    simp

theorem depth_returnAll (calls : List Call) (outcome : Except Fault Int) (m : Machine σ) :
    (m.returnAll calls outcome).depth = m.depth := by
  induction calls with
  | nil => rfl
  | cons call calls ih => exact ih

theorem workspace_returnAll (calls : List Call) (outcome : Except Fault Int) (m : Machine σ) :
    (m.returnAll calls outcome).workspace = m.workspace := by
  induction calls with
  | nil => rfl
  | cons call calls ih => exact ih

theorem LogsOnly.taking {m m' : Machine σ} (h : LogsOnly m m') (call : Call) :
    LogsOnly (m.taking call) (m'.taking call) :=
  ⟨h.depth, rfl, congrArg (Event.called call :: ·) h.trace, h.workspace⟩

theorem LogsOnly.callAll {m m' : Machine σ} (h : LogsOnly m m') (calls : List Call) :
    LogsOnly (m.callAll calls) (m'.callAll calls) := by
  induction calls generalizing m m' with
  | nil => exact h
  | cons call calls ih => exact ih (h.taking call)

/-- What happens between the calls and their return is enclosed by them. -/
theorem trace_returnAll {m m₁ m₂ : Machine σ} {calls : List Call} {inner : List Event}
    (hm₁ : LogsOnly (m.callAll calls) m₁) (hm₂ : m₂.trace = inner.reverse ++ m₁.trace)
    (outcome : Except Fault Int) :
    (m₂.returnAll calls outcome).trace = (enclosed calls outcome inner).reverse ++ m.trace := by
  have hreturn : (m₂.returnAll calls outcome).trace =
      (calls.map fun call => .returned call outcome call.args) ++ m₂.trace := by
    clear hm₁
    induction calls with
    | nil => rfl
    | cons call calls ih => exact congrArg (Event.returned call outcome call.args :: ·) ih
  rw [hreturn, hm₂, hm₁.trace, trace_callAll, enclosed]
  simp

theorem handedBack_of_words {m : Machine σ} {call : Call} (h : m.words = call.args)
    (outcome : Except Fault Int) : m.handedBack call outcome = m.returning call outcome := by
  rw [handedBack, ← h, given_words]

end Machine

namespace Interpreter

/-- The calls of commands that hand over: the one at position `k` has the words from `k` on. -/
def handedOver (m : Machine σ) (trail : List CommandId) (words : List String) : List Call :=
  trail.mapIdx fun k c => callOf m c (.builtin .log) (words.drop k)

theorem handedOver_cons (m : Machine σ) (c : CommandId) (trail : List CommandId) (word : String)
    (rest : List String) :
    handedOver m (c :: trail) (word :: rest) =
      callOf m c (.builtin .log) (word :: rest) :: handedOver m trail rest := by
  simp [handedOver, List.mapIdx_cons]

/-- The outermost command has the words of the line again, once they have all come back. -/
theorem words_returnAll_handedOver (m m' : Machine σ) (trail : List CommandId)
    (words : List String) (outcome : Except Fault Int) :
    (m'.returnAll (handedOver m trail words) outcome).words =
      if handedOver m trail words = [] then m'.words else words := by
  cases trail with
  | nil => rfl
  | cons c trail =>
    rw [handedOver, List.mapIdx_cons, returnAll_cons, if_neg (List.cons_ne_nil _ _)]
    rfl

theorem callOf_congr {m m' : Machine σ} (hdepth : m'.depth = m.depth)
    (hstore : m'.workspace.store = m.workspace.store) (c : CommandId) (handler : Handler)
    (args : List String) : callOf m' c handler args = callOf m c handler args := by
  rw [callOf, callOf, hdepth, hstore]

theorem run_find (re : Reentry σ) (c : CommandId) (keyword : String) (m : Machine σ) :
    (Builtin.find c keyword).run re m =
      (.ok (m.workspace.store.find c keyword).value,
        m.tellAll (m.workspace.store.find c keyword).notes) := by
  rw [Builtin.find, Routine.run_bind, Session.bind]
  exact Routine.run_noted re _ m

variable (I : Interpreter σ)

section

variable (re : Reentry σ) (m : Machine σ) (c : CommandId) (word : String)

/-- Without a further word there is nothing to hand a call over to. -/
theorem answer_log_of_nil :
    let call := callOf m c (.builtin .log) [word]
    ∃ m₁, LogsOnly (m.taking call) m₁ ∧
      I.answer re call m = (.ok Status.error, m₁.handedBack call (.ok Status.error)) := by
  intro call
  have htell := logsOnly_tell (m.taking call)
    ⟨Channel.builtins, Level.error, "Not enough arguments for log command", none⟩
  refine ⟨_, htell, ?_⟩
  rw [handedBack_of_words htell.words]
  rfl

variable {next : String} (rest : List String)

theorem answer_log_of_none (hfind : (m.workspace.store.find c next).value = none) :
    let call := callOf m c (.builtin .log) (word :: next :: rest)
    ∃ m₁, LogsOnly (m.taking call) m₁ ∧ I.answer re call m =
      (.ok Status.notFound, m₁.handedBack call (.ok Status.notFound)) := by
  intro call
  have hrun : ∃ m₁, LogsOnly (m.taking call) m₁ ∧
      (Builtin.logRoutine c next).run re (m.taking call) = (.ok Status.notFound, m₁) := by
    rw [Builtin.logRoutine, Routine.run_bind, Session.bind, run_find]
    change ((m.taking call).workspace.store.find c next).value = none at hfind
    dsimp only
    rw [hfind]
    exact ⟨_, (logsOnly_tellAll _ _).trans (logsOnly_tell _ _), rfl⟩
  obtain ⟨m₁, hm₁, hrun⟩ := hrun
  refine ⟨m₁, hm₁, ?_⟩
  rw [answer, show I.routineFor call = Builtin.logRoutine c next from rfl, hrun,
    handedBack_of_words hm₁.words]

/-- A call is handed over to the sub-command that the next word names. -/
theorem answer_log_of_some {d : CommandId}
    (hfind : (m.workspace.store.find c next).value = some d) :
    let call := callOf m c (.builtin .log) (word :: next :: rest)
    ∃ m₁, LogsOnly (m.taking call) m₁ ∧ I.answer re call m =
      ((re.delegate d m₁).1, (re.delegate d m₁).2.handedBack call (re.delegate d m₁).1) := by
  intro call
  have hrun : ∃ m₁, LogsOnly (m.taking call) m₁ ∧
      (Builtin.logRoutine c next).run re (m.taking call) =
        ((re.delegate d m₁).1, (re.delegate d m₁).2.given m₁.words) := by
    rw [Builtin.logRoutine, Routine.run_bind, Session.bind, run_find]
    change ((m.taking call).workspace.store.find c next).value = some d at hfind
    dsimp only
    rw [hfind]
    dsimp only
    rw [Routine.handOver, Routine.run_delegate, Routine.run_ofExcept]
    exact ⟨_, logsOnly_tellAll _ _, rfl⟩
  obtain ⟨m₁, hm₁, hrun⟩ := hrun
  have hwords : m₁.words = call.args := hm₁.words
  refine ⟨m₁, hm₁, ?_⟩
  rw [answer, show I.routineFor call = Builtin.logRoutine c next from rfl, hrun, hwords, handedBack]

end

/-! ## Following the trail -/

/-- What a call comes to at the end of the commands that hand it over.  Of the trail of
commands that the words name, the first that does not hand over is called with the words from
its own on.  If all of it hands over, either the words are used up, or the next one names
nothing. -/
def landing (dispatch : String → Session σ Int) (exec : CommandId → List String → Session σ Int)
    (s : Store) (trail : List CommandId) (words : List String) : Session σ Int :=
  match trail.dropWhile s.delegates with
  | [] => Session.pure (if trail.length = words.length then Status.error else Status.notFound)
  | c :: _ => I.callWith dispatch exec (words.drop (trail.takeWhile s.delegates).length) c

section

variable {dispatch : String → Session σ Int} {exec : CommandId → List String → Session σ Int}
  {s : Store} {c : CommandId} {trail : List CommandId} {word : String} {rest : List String}

/-- A command that hands over leaves it to the rest of the trail what a call comes to. -/
theorem landing_cons_of_delegates (h : s.delegates c = true) :
    I.landing dispatch exec s (c :: trail) (word :: rest) =
      I.landing dispatch exec s trail rest := by
  simp [landing, h]

theorem landing_cons_of_not (h : s.delegates c = false) (words : List String) :
    I.landing dispatch exec s (c :: trail) words = I.callWith dispatch exec words c := by
  simp [landing, h]

/-- The call comes to what the end of the trail makes of it, within those calls that hand it
over. -/
def Follows (dispatch : String → Session σ Int) (exec : CommandId → List String → Session σ Int)
    (s : Store) (trail : List CommandId) (words : List String) (m : Machine σ)
    (result : Except Fault Int × Machine σ) : Prop :=
  ∃ m₁ m₂ outcome,
    LogsOnly (m.callAll (handedOver m (trail.takeWhile s.delegates) words)) m₁ ∧
    I.landing dispatch exec s trail words m₁ = (outcome, m₂) ∧
    result = (outcome, m₂.returnAll (handedOver m (trail.takeWhile s.delegates) words) outcome)

theorem handler_of_delegates (h : s.delegates c = true) :
    (s.command c).handler = some (.builtin .log) := by
  simpa [Store.delegates] using h

/-- One more command that hands over. -/
theorem Follows.cons {m m₁ : Machine σ} {result : Except Fault Int × Machine σ}
    (hc : s.delegates c = true)
    (hm₁ : LogsOnly (m.taking (callOf m c (.builtin .log) (word :: rest))) m₁)
    (h : I.Follows dispatch exec s trail rest m₁ result) :
    I.Follows dispatch exec s (c :: trail) (word :: rest) m
      (result.1,
        result.2.handedBack (callOf m c (.builtin .log) (word :: rest)) result.1) := by
  obtain ⟨m₂, m₃, outcome, hm₂, hlanding, rfl⟩ := h
  have hcalls : handedOver m₁ (trail.takeWhile s.delegates) rest =
      handedOver m (trail.takeWhile s.delegates) rest := by
    simp only [handedOver, callOf_congr hm₁.depth hm₁.store]
    rfl
  rw [hcalls] at hm₂ ⊢
  refine ⟨m₂, m₃, outcome, ?_, ?_, ?_⟩
  · rw [List.takeWhile_cons_of_pos hc, handedOver_cons, callAll_cons]
    exact (hm₁.callAll _).trans hm₂
  · rw [I.landing_cons_of_delegates hc, hlanding]
  · rw [List.takeWhile_cons_of_pos hc, handedOver_cons, returnAll_cons]

/-- Without any command, what is answered depends on whether there are words. -/
theorem follows_nil (words : List String) (m : Machine σ) :
    I.Follows dispatch exec s [] words m
      (.ok (if words = [] then Status.error else Status.notFound), m) := by
  refine ⟨m, m, _, .refl m, ?_, rfl⟩
  simp [landing, Session.pure, eq_comm]

theorem follows_of_not (h : s.delegates c = false) (words : List String) (m : Machine σ) :
    I.Follows dispatch exec s (c :: trail) words m (I.callWith dispatch exec words c m) := by
  rw [Follows, List.takeWhile_cons_of_neg (by simp [h])]
  exact ⟨m, _, _, .refl m, by rw [I.landing_cons_of_not h], rfl⟩

theorem exists_descend_eq_cons (s : Store) (c : CommandId) (words : List String) :
    ∃ trail, (s.descend c words).value = c :: trail := by
  cases words with
  | nil => exact ⟨[], rfl⟩
  | cons word rest =>
    cases h : (s.find c word).value with
    | none => exact ⟨[], Store.value_descend_of_none h rest⟩
    | some d => exact ⟨_, Store.value_descend_of_some h rest⟩

/-- A call follows the words down the tree. -/
theorem callWith_descend (m : Machine σ) (hs : m.workspace.store = s) (c : CommandId)
    (word : String) (rest : List String) :
    I.Follows dispatch exec s (s.descend c rest).value (word :: rest) m
      (I.callWith dispatch exec (word :: rest) c m) := by
  subst hs
  induction rest generalizing m c word with
  | nil =>
    by_cases hc : m.workspace.store.delegates c = true
    · rw [I.callWith_of_some (handler_of_delegates hc)]
      obtain ⟨m₁, hm₁, hanswer⟩ := I.answer_log_of_nil _ m c word
      rw [hanswer]
      exact Follows.cons I hc hm₁ (I.follows_nil [] m₁)
    · exact I.follows_of_not (by simpa using hc) [word] m
  | cons next rest ih =>
    by_cases hc : m.workspace.store.delegates c = true
    · rw [I.callWith_of_some (handler_of_delegates hc)]
      cases hfind : (m.workspace.store.find c next).value with
      | none =>
        obtain ⟨m₁, hm₁, hanswer⟩ := I.answer_log_of_none _ m c word rest hfind
        rw [hanswer, Store.value_descend_of_none hfind]
        exact Follows.cons I hc hm₁ (I.follows_nil (next :: rest) m₁)
      | some d =>
        obtain ⟨m₁, hm₁, hanswer⟩ := I.answer_log_of_some _ m c word rest hfind
        have hstore : m₁.workspace.store = m.workspace.store := hm₁.store
        rw [hanswer, Store.value_descend_of_some hfind, ← hstore]
        rw [← hstore] at hc
        exact Follows.cons I hc hm₁ (ih m₁ d next)
    · obtain ⟨trail, htrail⟩ := exists_descend_eq_cons m.workspace.store c (next :: rest)
      rw [htrail]
      exact I.follows_of_not (by simpa using hc) (word :: next :: rest) m

end

/-! ## Lines -/

/-- What a handler that a dispatch calls with words may call itself. -/
def offers (args : List String) : Reentry σ :=
  ⟨I.dispatch, I.callAt I.dispatch (callLimit - 1),
    I.handOver I.dispatch (I.callAt I.dispatch (callLimit - 1)) args⟩

theorem nests_offers (args : List String) (depth : Nat) :
    (I.offers args).Nests I.shell.maxDepth depth := by
  refine I.nests_offered (fun line m _ => I.isDispatch_dispatch line m) (fun c args m _ => ?_) args
  exact (I.contract_trivial.callAt (fun line m _ => ⟨I.isDispatch_dispatch line m, trivial⟩)
    _ c args m rfl).1.grows rfl

theorem handedOver_congr {m m' : Machine σ} (h : LogsOnly m m') (trail : List CommandId)
    (words : List String) : handedOver m' trail words = handedOver m trail words := by
  simp only [handedOver, callOf_congr h.depth h.store]

/-- A line follows its words down the tree from the root. -/
theorem runLine_follows {line : String} {m : Machine σ} {words : List String}
    (hwords : (I.shell.rules.tokenize line).value = words) (hne : words ≠ []) :
    ∃ m₁ result m₂, LogsOnly m m₁ ∧
      I.Follows I.dispatch (I.callAt I.dispatch (callLimit - 1)) m.workspace.store
        (m.workspace.store.descend I.shell.root words).value.tail words m₁ result ∧
      LogsOnly (result.2.given m₁.words) m₂ ∧ (I.LeavesWord → Spec.leavesWord m₁ result) ∧
      I.runLine I.dispatch line m = (settled result.2.words result.1, m₂) := by
  obtain ⟨word, rest, rfl⟩ := List.exists_cons_of_ne_nil hne
  have hsplit := logsOnly_tellAll m (I.shell.rules.tokenize line).notes
  have hfound := hsplit.trans (logsOnly_tellAll _
    (m.workspace.store.find I.shell.root word).notes)
  simp only [runLine, hwords, hsplit.store]
  cases hfind : (m.workspace.store.find I.shell.root word).value with
  | none =>
    rw [Store.value_descend_of_none hfind]
    refine ⟨_, _, _, hfound.trans (logsOnly_tell _ _), I.follows_nil (word :: rest) _, .refl _, ?_,
      rfl⟩
    rintro - fault hfault
    cases hfault
  | some c =>
    generalize (m.tellAll (I.shell.rules.tokenize line).notes).tellAll
      (m.workspace.store.find I.shell.root word).notes = m₁ at hfound ⊢
    obtain ⟨m₂, hm₂, hguarded⟩ := guarded_eq m₁.words
      (I.callAt I.dispatch callLimit c (word :: rest) m₁)
    rw [Store.value_descend_of_some hfind]
    exact ⟨m₁, _, m₂, hfound, I.callWith_descend _ hfound.store c word rest, hm₂,
      fun hleaves => hleaves.callAt I.words_dispatch (List.cons_ne_nil word rest) callLimit c m₁,
      hguarded⟩

/-- Below the limit on nesting, a line comes to what the end of the trail makes of it.  The words
that the outermost command leaves are those by which a failure is named. -/
theorem exists_landing {line : String} {m : Machine σ} {words : List String}
    (hdepth : m.depth < I.shell.maxDepth)
    (hwords : (I.shell.rules.tokenize line).value = words) (hne : words ≠ []) :
    let s := m.workspace.store
    let trail := (s.descend I.shell.root words).value.tail
    let calls := handedOver (enter line m) (trail.takeWhile s.delegates) words
    ∃ m₁ m₂ m₃ outcome left own,
      LogsOnly ((enter line m).callAll calls) m₁ ∧
      I.landing I.dispatch (I.callAt I.dispatch (callLimit - 1)) s trail words m₁ =
        (outcome, m₂) ∧
      left = (if calls = [] then m₂.words else words) ∧
      (I.LeavesWord → ∀ fault, outcome = .error fault → left ≠ []) ∧
      LogsOnly ((m₂.returnAll calls outcome).given own) m₃ ∧
      I.dispatch line m = leave line (settled left outcome, m₃) := by
  intro s trail calls
  obtain ⟨m₀, hm₀, hnested⟩ := nested_eq line (I.runLine I.dispatch line) m
  have hs₀ : m₀.workspace.store = s := hm₀.store
  obtain ⟨m₁, result, m₄, hm₁, ⟨m₂, m₃, outcome, hm₂, hlanding, rfl⟩, hm₄, hleaves, hrun⟩ :=
    I.runLine_follows (m := m₀) hwords hne
  have hm₁' := hm₀.trans hm₁
  rw [hs₀, handedOver_congr hm₁'] at hm₂ hm₄ hleaves hrun
  rw [hs₀] at hlanding
  have hleft : (m₃.returnAll calls outcome).words = if calls = [] then m₃.words else words :=
    words_returnAll_handedOver ..
  refine ⟨m₂, m₃, m₄, outcome, _, _, (hm₁'.callAll _).trans hm₂, hlanding, hleft, ?_, hm₄, ?_⟩
  · intro hword fault hfault
    exact hleaves hword fault hfault
  · rw [I.dispatch_eq, if_pos hdepth, hnested, hrun]

/-- What is left of a call that is not handed over any more: nothing, if the whole trail hands
over or the command has no handler; otherwise the handler is called, once. -/
def Lands (s : Store) (trail : List CommandId) (words : List String) (m m' : Machine σ)
    (outcome : Except Fault Int) : Prop :=
  match trail.dropWhile s.delegates with
  | [] =>
    outcome = .ok (if trail.length = words.length then Status.error else Status.notFound) ∧ m' = m
  | c :: _ =>
    match (s.command c).handler with
    | none => outcome = .ok 0 ∧ m' = m
    | some handler =>
      let args := words.drop (trail.takeWhile s.delegates).length
      let call := callOf m c handler args
      I.answer (I.offers args) call m = (outcome, m') ∧
        ∃ inner, Activity I.shell.maxDepth m.depth inner ∧
          m.since m' = .called call :: (inner ++ [.returned call outcome m'.words])

theorem lands_landing {s : Store} {trail : List CommandId} {words : List String}
    {m m' : Machine σ} {outcome : Except Fault Int} (hs : m.workspace.store = s)
    (h : I.landing I.dispatch (I.callAt I.dispatch (callLimit - 1)) s trail words m =
      (outcome, m')) :
    I.Lands s trail words m m' outcome ∧ Grows I.shell.maxDepth m m' := by
  subst hs
  rw [landing] at h
  rw [Lands]
  cases hdrop : trail.dropWhile m.workspace.store.delegates with
  | nil =>
    rw [hdrop] at h
    cases h
    exact ⟨⟨rfl, rfl⟩, .refl _ m⟩
  | cons c _ =>
    rw [hdrop] at h
    dsimp only at h ⊢
    cases hhandler : (m.workspace.store.command c).handler with
    | none =>
      rw [I.callWith_of_none hhandler] at h
      cases h
      exact ⟨⟨rfl, rfl⟩, .refl _ m⟩
    | some handler =>
      rw [I.callWith_of_some hhandler] at h
      generalize words.drop (trail.takeWhile m.workspace.store.delegates).length = args at h ⊢
      have hnests := I.nests_offers args m.depth
      have hrun := Routine.grows_run hnests (I.routineFor (callOf m c handler args))
        (m.taking (callOf m c handler args)) rfl
      have hcall : (callOf m c handler args).depth = m.depth := rfl
      have hgrows := (I.isCall_answer hnests hcall rfl).grows rfl
      have hsince := I.since_answer hnests (callOf m c handler args)
      change I.answer (I.offers args) _ m = _ at h
      rw [h] at hgrows hsince
      exact ⟨⟨h, _, hrun.since.2, hsince⟩, hgrows⟩

end Interpreter

/-- An application whose handlers answer with the number of their words. -/
def counting : Interpreter Unit where
  shell := { root := ⟨0⟩ }
  handlers _ call := .done call.args.length

/-- The command `level` below two commands that hand calls over. -/
def countingStart : Machine Unit where
  workspace :=
    { store :=
        { commands :=
            [{ children := some (.owned ⟨0⟩) },
              { keyword := "log", handler := some (.builtin .log), children := some (.owned ⟨1⟩) },
              { keyword := "more", handler := some (.builtin .log), children := some (.owned ⟨2⟩) },
              { keyword := "level", handler := some (.custom "level") }]
          registries := [{ items := [⟨1⟩] }, { items := [⟨2⟩] }, { items := [⟨3⟩] }] }
      disk := {}
      environment := {}
      application := () }
  journal := {}

end CommandShell
