import CommandShell.Proofs.Run.Nesting

/-!
# What lines do to the commands

Handlers may change the commands in any way, and call back into the interpreter at any
time.  What is known of the commands before a routine, and after it, is stated by triples;
they are put together along the routine.  Whatever a routine calls may change the commands
as well, but keeps what is known of them throughout: the invariant.

Of the built-in commands, only two change the commands at all, `alias` and `unalias`.  So
an invariant that these two keep is kept by every line, as long as no other handlers can be
called.
-/

namespace CommandShell

open Machine

variable {σ ρ τ : Type}

/-! ## Triples -/

/-- The call keeps an invariant of the commands. -/
def Spec.keeps (J : Store → Prop) : Spec σ := fun m result =>
  J m.workspace.store → J result.2.workspace.store

/-- Whatever a routine calls at a depth is well nested and keeps an invariant. -/
abbrev Reentry.Keeps (limit : Int) (depth : Nat) (J : Store → Prop) (re : Reentry σ) : Prop :=
  re.Meets depth (fun _ => (Spec.nests limit).and (Spec.keeps J))
    ((Spec.nests limit).and (Spec.keeps J))

namespace Routine

/-- An answer comes with commands of which `Q` holds, a failure with the invariant. -/
def Ends (J : Store → Prop) (Q : ρ → Store → Prop) : Except Fault ρ × Machine σ → Prop
  | (.ok r, m) => Q r m.workspace.store
  | (.error _, m) => J m.workspace.store

/-- Started at a depth with commands of which `P` holds, the routine comes back to this
depth, with an answer and commands of which `Q` holds, or with a failure and the invariant. -/
structure Triple (re : Reentry σ) (depth : Nat) (J P : Store → Prop) (x : Routine σ ρ)
    (Q : ρ → Store → Prop) : Prop where
  run : ∀ m : Machine σ, m.depth = depth → P m.workspace.store →
    (x.run re m).2.depth = depth ∧ Ends J Q (x.run re m)

variable {re : Reentry σ} {depth : Nat} {J P : Store → Prop}

section

variable {Q : ρ → Store → Prop} {R : τ → Store → Prop} {x : Routine σ ρ}

theorem Triple.weaken {Q' : ρ → Store → Prop} (h : Triple re depth J P x Q)
    (hpost : ∀ r s, Q r s → Q' r s) : Triple re depth J P x Q' := by
  refine ⟨fun m hm hP => ?_⟩
  obtain ⟨hdepth, hends⟩ := h.run m hm hP
  refine ⟨hdepth, ?_⟩
  cases hrun : x.run re m with
  | mk outcome m' =>
    rw [hrun] at hends
    cases outcome with
    | ok r => exact hpost r _ hends
    | error fault => exact hends

/-- A routine whose effect on the commands is known keeps an invariant if this effect does. -/
theorem Triple.keeps {f : Store → ρ × Store}
    (h : ∀ s, Triple re depth J (· = s) x fun r t => f s = (r, t))
    (hf : ∀ s, J s → J (f s).2) : Triple re depth J J x fun _ => J := by
  refine ⟨fun m hm hJ => ((h _).weaken fun r t hrt => ?_).run m hm rfl⟩
  have hkept := hf _ hJ
  rwa [hrt] at hkept

/-- One routine after another. -/
theorem Triple.bind {f : ρ → Routine σ τ} (hx : Triple re depth J P x Q)
    (hf : ∀ r, Triple re depth J (Q r) (f r) R) : Triple re depth J P (x >>= f) R := by
  refine ⟨fun m hm hP => ?_⟩
  obtain ⟨hdepth, hends⟩ := hx.run m hm hP
  rw [run_bind, Session.bind]
  cases hrun : x.run re m with
  | mk outcome m' =>
    rw [hrun] at hdepth hends
    cases outcome with
    | ok r => exact (hf r).run m' hdepth hends
    | error fault => exact ⟨hdepth, hends⟩

theorem triple_pure {r : ρ} (h : ∀ s, P s → Q r s) : Triple re depth J P (pure r) Q :=
  ⟨fun _ hm hP => ⟨hm, h _ hP⟩⟩

theorem triple_raise (fault : Fault) (h : ∀ s, P s → J s) :
    Triple re depth J P (raise fault) Q :=
  ⟨fun _ hm hP => ⟨hm, h _ hP⟩⟩

theorem triple_ofExcept (outcome : Except Fault ρ) :
    Triple re depth J J (ofExcept outcome) fun _ => J := by
  cases outcome with
  | ok r => exact triple_pure fun _ h => h
  | error fault => exact triple_raise fault fun _ h => h

/-- A change of the log does not concern the commands. -/
theorem triple_logging (change : Journal.Change) {next : Except Fault Journal → Routine σ ρ}
    (hnext : ∀ outcome, Triple re depth J P (next outcome) Q) :
    Triple re depth J P (logging change next) Q := by
  refine ⟨fun m hm hP => ?_⟩
  have hlog := logsOnly_changeLog m change
  rw [run_logging]
  exact (hnext _).run _ (hlog.depth.trans hm) (hlog.store ▸ hP)

/-- A routine calls something only where the invariant holds. -/
theorem triple_dispatch {limit : Int} (hre : re.Keeps limit depth J) (line : String)
    {next : Except Fault Int → Routine σ ρ}
    (hnext : ∀ outcome, Triple re depth J J (next outcome) Q) :
    Triple re depth J J (dispatch line next) Q := by
  refine ⟨fun m hm hJ => ?_⟩
  obtain ⟨hgrows, hkeeps⟩ := hre.dispatch line m hm
  exact (hnext _).run _ (hgrows.depth.trans hm) (hkeeps hJ)

theorem triple_delegate {limit : Int} (hre : re.Keeps limit depth J) (c : CommandId)
    {next : Except Fault Int → Routine σ ρ}
    (hnext : ∀ outcome, Triple re depth J J (next outcome) Q) :
    Triple re depth J J (delegate c next) Q := by
  refine ⟨fun m hm hJ => ?_⟩
  obtain ⟨hgrows, hkeeps⟩ := hre.delegate c m hm
  exact (hnext _).run _ (hgrows.depth.trans hm) (hkeeps hJ)

end

theorem triple_workspace :
    Triple re depth J P (workspace : Routine σ (Workspace σ)) fun _ => P :=
  ⟨fun _ hm hP => ⟨hm, hP⟩⟩

theorem triple_store :
    Triple re depth J P (store : Routine σ Store) fun r s => P s ∧ r = s :=
  ⟨fun _ hm hP => ⟨hm, hP, rfl⟩⟩

/-- Whatever else is changed does not concern the commands. -/
theorem triple_modify {f : Workspace σ → Workspace σ} (hf : ∀ w, (f w).store = w.store) :
    Triple re depth J P (modify f) fun _ => P :=
  ⟨fun m hm hP => ⟨hm, show P (f m.workspace).store from (hf m.workspace).symm ▸ hP⟩⟩

theorem triple_write (text : String) :
    Triple re depth J P (write text : Routine σ Unit) fun _ => P :=
  triple_modify fun _ => rfl

theorem triple_say (channel : String) (level : Int) (message : String) :
    Triple re depth J P (say channel level message : Routine σ Unit) fun _ => P := by
  refine ⟨fun m hm hP => ?_⟩
  have htell := logsOnly_tell m ⟨channel, level, message, none⟩
  exact ⟨htell.depth.trans hm, show P _ from htell.store.symm ▸ hP⟩

theorem triple_noted (x : Noted ρ) :
    Triple re depth J P (noted x) fun r s => P s ∧ r = x.value := by
  refine ⟨fun m hm hP => ?_⟩
  have htell := logsOnly_tellAll m x.notes
  rw [run_noted]
  exact ⟨htell.depth.trans hm, show P _ from htell.store.symm ▸ hP, rfl⟩

/-- An operation on the commands. -/
theorem triple_onStore (f : Store → Noted (ρ × Store)) :
    Triple re depth J P (onStore f) fun r t => ∃ s, P s ∧ (f s).value = (r, t) := by
  refine triple_store.bind fun s => ?_
  refine (triple_noted (f s)).bind fun (r, t) => ?_
  refine ⟨fun m hm hP => ?_⟩
  obtain ⟨⟨hP, hs⟩, hvalue⟩ := hP
  exact ⟨hm, s, hs ▸ hP, hvalue.symm⟩

theorem triple_changeLog (change : Journal.Change) :
    Triple re depth J J (changeLog change : Routine σ Journal) fun _ => J :=
  triple_logging change triple_ofExcept

/-! ## Scripts -/

section

variable {limit : Int} (hre : re.Keeps limit depth J)

include hre

theorem triple_runLine (soFar : Int) (line : String) :
    Triple re depth J J (runLine soFar line) fun _ => J :=
  (triple_dispatch hre line triple_ofExcept).bind fun _ =>
    (triple_say ..).bind fun _ => triple_pure fun _ h => h

theorem triple_follow (path : String) (place : Place) (fuel position : Nat) (soFar : Int) :
    Triple re depth J J (follow path place fuel position soFar) fun _ => J := by
  induction fuel generalizing position soFar with
  | zero => exact triple_pure fun _ h => h
  | succ fuel ih =>
    refine triple_workspace.bind fun w => ?_
    split
    · exact triple_pure fun _ h => h
    · exact (triple_runLine hre ..).bind fun _ => ih ..
    · exact (triple_say ..).bind fun _ => triple_pure fun _ h => h

omit hre in
theorem triple_openScript (path : String) {next : Disk → Place → Routine σ Int}
    (hnext : ∀ disk place, Triple re depth J J (next disk place) fun _ => J) :
    Triple re depth J J (openScript path next) fun _ => J := by
  refine triple_workspace.bind fun w => ?_
  dsimp only
  split
  · exact hnext _ _
  · split_ifs
    · exact (triple_say ..).bind fun _ => triple_pure fun _ h => h
    · exact triple_raise _ fun _ h => h

omit hre in
theorem triple_failScript (path : String) (fault : Fault) :
    Triple re depth J J (failScript path fault : Routine σ Int) fun _ => J := by
  refine triple_openScript path fun disk place => ?_
  split
  · exact triple_pure fun _ h => h
  · exact triple_raise _ fun _ h => h
  · exact (triple_say ..).bind fun _ => triple_pure fun _ h => h

theorem triple_runScript (path : String) :
    Triple re depth J J (runScript path) fun _ => J :=
  triple_openScript path fun _ _ => triple_follow hre ..

end

end Routine

/-! ## Built-in commands -/

/-- What `alias` makes of the commands: an alias that is registered, or one that is
destroyed because it could not be. -/
def Store.afterAlias (s : Store) (root c : CommandId) (keyword : String) : Store :=
  let made := s.makeAlias c keyword
  let registered := (made.2.register root made.1).value
  if registered.1 then registered.2 else (registered.2.destroy made.1).value

/-- What `alias` answers and makes of the commands. -/
def Store.aliasAnswer (s : Store) (root : CommandId) (new target : String) : Int × Store :=
  match (s.find root target).value with
  | none => (Status.notFound, s)
  | some c =>
    let made := s.makeAlias c new
    (if (made.2.register root made.1).value.1 then Status.success else Status.rejected,
      s.afterAlias root c new)

/-- What `unalias` answers and makes of the commands. -/
def Store.unaliasAnswer (s : Store) (root : CommandId) (keyword : String) : Int × Store :=
  match (s.find root keyword).value with
  | none => (Status.notFound, s)
  | some c =>
    if (s.command c).attributes.isAlias then
      let dropped := (s.unregister root c).value
      (if dropped.1 then Status.success else Status.failed, dropped.2)
    else (Status.rejected, s)

namespace Store

variable {s : Store} {root c : CommandId} {new target keyword : String}

theorem aliasAnswer_of_none (h : (s.find root target).value = none) :
    s.aliasAnswer root new target = (Status.notFound, s) := by
  rw [aliasAnswer, h]

theorem aliasAnswer_of_some (h : (s.find root target).value = some c) :
    s.aliasAnswer root new target =
      (if ((s.makeAlias c new).2.register root (s.makeAlias c new).1).value.1 then Status.success
        else Status.rejected, s.afterAlias root c new) := by
  rw [aliasAnswer, h]

theorem unaliasAnswer_of_none (h : (s.find root keyword).value = none) :
    s.unaliasAnswer root keyword = (Status.notFound, s) := by
  rw [unaliasAnswer, h]

theorem unaliasAnswer_of_not (h : (s.find root keyword).value = some c)
    (hc : (s.command c).attributes.isAlias = false) :
    s.unaliasAnswer root keyword = (Status.rejected, s) := by
  rw [unaliasAnswer, h]
  simp [hc]

theorem unaliasAnswer_of_alias (h : (s.find root keyword).value = some c)
    (hc : (s.command c).attributes.isAlias = true) :
    s.unaliasAnswer root keyword =
      (if (s.unregister root c).value.1 then Status.success else Status.failed,
        (s.unregister root c).value.2) := by
  rw [unaliasAnswer, h]
  simp [hc]

end Store

/-- An invariant of the commands that `alias` and `unalias` keep. -/
structure Store.Bears (root : CommandId) (J : Store → Prop) : Prop where
  aliased : ∀ {s c target}, J s → (s.find root target).value = some c →
    ∀ keyword, J (s.afterAlias root c keyword)
  unaliased : ∀ {s c keyword}, J s → (s.find root keyword).value = some c →
    (s.command c).attributes.isAlias = true → J (s.unregister root c).value.2

/-- One under which, besides, only built-in handlers can be called. -/
structure Store.Endures (root : CommandId) (J : Store → Prop) : Prop extends
    Store.Bears root J where
  builtin : ∀ {s c handler}, J s → (s.command c).handler = some handler →
    ∃ b, handler = .builtin b

namespace Builtin

open Routine

variable {re : Reentry σ} {depth : Nat} {J P : Store → Prop}

theorem triple_complain (message : String) :
    Triple re depth J P (complain message : Routine σ Int) fun _ => P :=
  (triple_say ..).bind fun _ => triple_pure fun _ h => h

theorem triple_within (context : Context) (feature : String) {next : Routine σ Int}
    (hnext : Triple re depth J J next fun _ => J) :
    Triple re depth J J (within context feature next) fun _ => J := by
  cases context with
  | interpreter => exact hnext
  | value v => exact triple_raise _ fun _ h => h

theorem triple_find (c : CommandId) (keyword : String) :
    Triple re depth J P (find c keyword : Routine σ (Option CommandId)) fun found s =>
      P s ∧ found = (s.find c keyword).value := by
  refine triple_store.bind fun s => (triple_noted (s.find c keyword)).weaken ?_
  rintro found t ⟨⟨hP, rfl⟩, hfound⟩
  exact ⟨hP, hfound⟩

theorem triple_aliasRoutine (shell : Shell) (s : Store) (new target : String) :
    Triple re depth J (· = s) (aliasRoutine shell new target : Routine σ Int)
      fun status t => s.aliasAnswer shell.root new target = (status, t) := by
  refine (triple_find shell.root target).bind fun found => ?_
  cases found with
  | none =>
    refine (triple_say ..).bind fun _ => triple_pure ?_
    rintro t ⟨rfl, hfound⟩
    rw [Store.aliasAnswer_of_none hfound.symm]
  | some c =>
    -- Once the alias is registered or refused, what is left to do is known.
    refine (triple_onStore _).bind fun made => Triple.bind
      (Q := fun taken u => s.aliasAnswer shell.root new target =
        (if taken then Status.success else Status.rejected,
          if taken then u else (u.destroy made).value))
      ((triple_onStore _).weaken ?_) fun taken => ?_
    · rintro taken u ⟨t, ⟨t₀, ⟨rfl, hfound⟩, hmade⟩, htaken⟩
      rw [Noted.value_pure] at hmade
      rw [Store.aliasAnswer_of_some hfound.symm, Store.afterAlias, hmade]
      dsimp only
      rw [htaken]
    · cases taken with
      | true => exact triple_pure fun _ h => h
      | false =>
        refine (triple_say ..).bind fun _ => (triple_onStore _).bind fun _ => triple_pure ?_
        rintro v ⟨u, hu, hvalue⟩
        cases hvalue
        exact hu

theorem triple_unaliasRoutine (shell : Shell) (s : Store) (keyword : String) :
    Triple re depth J (· = s) (unaliasRoutine shell keyword : Routine σ Int)
      fun status t => s.unaliasAnswer shell.root keyword = (status, t) := by
  refine (triple_find shell.root keyword).bind fun found => ?_
  cases found with
  | none =>
    refine (triple_say ..).bind fun _ => triple_pure ?_
    rintro t ⟨rfl, hfound⟩
    rw [Store.unaliasAnswer_of_none hfound.symm]
  | some c =>
    refine triple_store.bind fun s' => ?_
    dsimp only
    split_ifs with halias
    · refine (triple_write _).bind fun _ => triple_pure ?_
      rintro t ⟨⟨rfl, hfound⟩, rfl⟩
      rw [Store.unaliasAnswer_of_not hfound.symm (by simpa using halias)]
    · refine Triple.bind
        (Q := fun dropped u => s.unaliasAnswer shell.root keyword =
          (if dropped then Status.success else Status.failed, u))
        ((triple_onStore _).weaken ?_) fun dropped => ?_
      · rintro dropped u ⟨t, ⟨⟨rfl, hfound⟩, rfl⟩, hvalue⟩
        rw [Store.unaliasAnswer_of_alias hfound.symm (by simpa using halias), hvalue]
      · cases dropped with
        | true => exact triple_pure fun _ h => h
        | false => exact (triple_write _).bind fun _ => triple_pure fun _ h => h

theorem triple_levelRoutine (word : String) :
    Triple re depth J J (levelRoutine word : Routine σ Int) fun _ => J := by
  rw [levelRoutine]
  split
  · exact triple_complain _
  · exact (triple_say ..).bind fun _ => (triple_changeLog _).bind fun _ => triple_pure fun _ h => h

theorem triple_screenRoutine (word : String) :
    Triple re depth J J (screenRoutine word : Routine σ Int) fun _ => J := by
  unfold screenRoutine
  exact (triple_say ..).bind fun _ => (triple_changeLog _).bind fun _ => triple_pure fun _ h => h

theorem triple_fileRoutine (path : String) :
    Triple re depth J J (fileRoutine path : Routine σ Int) fun _ => J := by
  refine (triple_say ..).bind fun _ => triple_logging _ fun outcome => ?_
  cases outcome with
  | ok journal => exact triple_pure fun _ h => h
  | error fault =>
    dsimp only
    split_ifs
    · exact (triple_say ..).bind fun _ => triple_pure fun _ h => h
    · exact triple_raise _ fun _ h => h

theorem triple_logRoutine {limit : Int} (hre : re.Keeps limit depth J) (c : CommandId)
    (keyword : String) :
    Triple re depth J J (logRoutine c keyword : Routine σ Int) fun _ => J := by
  refine ((triple_find c keyword).weaken fun _ _ h => h.1).bind fun found => ?_
  cases found with
  | none => exact (triple_say ..).bind fun _ => triple_pure fun _ h => h
  | some sub => exact triple_delegate hre sub triple_ofExcept

theorem triple_sourceRoutine {limit : Int} (hre : re.Keeps limit depth J) (context : Context)
    (path : String) :
    Triple re depth J J (sourceRoutine context path : Routine σ Int) fun _ => J := by
  cases context with
  | interpreter => exact triple_runScript hre path
  | value v => exact triple_failScript path _

theorem keeps_aliasAnswer {root : CommandId} (hJ : Store.Bears root J) {s : Store} (hs : J s)
    (new target : String) : J (s.aliasAnswer root new target).2 := by
  cases hfound : (s.find root target).value with
  | none => rwa [Store.aliasAnswer_of_none hfound]
  | some c =>
    rw [Store.aliasAnswer_of_some hfound]
    exact hJ.aliased hs hfound new

theorem keeps_unaliasAnswer {root : CommandId} (hJ : Store.Bears root J) {s : Store} (hs : J s)
    (keyword : String) : J (s.unaliasAnswer root keyword).2 := by
  cases hfound : (s.find root keyword).value with
  | none => rwa [Store.unaliasAnswer_of_none hfound]
  | some c =>
    cases halias : (s.command c).attributes.isAlias with
    | false => rwa [Store.unaliasAnswer_of_not hfound halias]
    | true =>
      rw [Store.unaliasAnswer_of_alias hfound halias]
      exact hJ.unaliased hs hfound halias

/-- Every built-in command keeps an invariant that `alias` and `unalias` keep. -/
theorem triple_routine {limit : Int} (hre : re.Keeps limit depth J) {shell : Shell}
    (hJ : Store.Bears shell.root J) (call : Call) (b : Builtin) :
    Triple re depth J J (b.routine shell call : Routine σ Int) fun _ => J := by
  cases b with
  | help =>
    refine triple_within _ _ ?_
    exact (triple_store.weaken fun _ _ h => h.1).bind fun _ =>
      (triple_write _).bind fun _ => triple_pure fun _ h => h
  | makeAlias =>
    rw [routine]
    split
    · refine triple_within _ _ ?_
      exact Triple.keeps (fun s => triple_aliasRoutine shell s _ _) fun _ hs =>
        keeps_aliasAnswer hJ hs _ _
    · exact triple_complain _
  | dropAlias =>
    rw [routine]
    split
    · refine triple_within _ _ ?_
      exact Triple.keeps (fun s => triple_unaliasRoutine shell s _) fun _ hs =>
        keeps_unaliasAnswer hJ hs _
    · exact triple_complain _
  | log =>
    rw [routine]
    split
    · exact triple_logRoutine hre _ _
    · exact triple_complain _
  | logLevel =>
    rw [routine]
    split
    · exact triple_levelRoutine _
    · exact triple_complain _
  | logScreen =>
    rw [routine]
    split
    · exact triple_screenRoutine _
    · exact triple_complain _
  | logFile =>
    rw [routine]
    split
    · exact triple_fileRoutine _
    · exact triple_complain _
  | source =>
    rw [routine]
    split
    · exact triple_sourceRoutine hre _ _
    · exact triple_complain _
  | quit =>
    refine triple_within _ _ ?_
    exact Triple.bind (triple_modify fun _ => rfl) fun _ => triple_pure fun _ h => h

end Builtin

/-! ## Dispatches -/

namespace Interpreter

variable {I : Interpreter σ} {J : Store → Prop}

theorem keeps_answer {P : Store → Prop} {re : Reentry σ} {m : Machine σ} {call : Call}
    (hroutine : Routine.Triple re m.depth J P (I.routineFor call) fun _ => J)
    (hP : P m.workspace.store) : J (I.answer re call m).2.workspace.store := by
  obtain ⟨-, hends⟩ := hroutine.run (m.taking call) rfl hP
  rw [answer]
  cases hrun : (I.routineFor call).run re (m.taking call) with
  | mk outcome m' =>
    rw [hrun] at hends
    cases outcome <;> exact hends

/-- Every call and every dispatch keeps an invariant that `alias` and `unalias` keep. -/
theorem contract_keeps (hJ : Store.Endures I.shell.root J) :
    I.Contract (fun _ => Spec.keeps J) (Spec.keeps J) where
  tooMany _ h := h
  silent _ h := h
  called re m c handler args hhandler hre hm := by
    have hre' : re.Keeps I.shell.maxDepth m.depth J :=
      hre.mono (fun _ _ _ h => ⟨h.1.grows, h.2⟩) (fun _ _ h => h)
    obtain ⟨b, rfl⟩ := hJ.builtin hm hhandler
    exact keeps_answer (Builtin.triple_routine hre' hJ.toBears _ b) hm
  answered line m m₁ status hm₁ _ hm := by
    have hstore : m₁.workspace.store = m.workspace.store := hm₁.store
    exact show J m₁.workspace.store from hstore ▸ hm
  dispatched line m m₁ result m₂ _ hm₁ _ hresult hm₂ _ hm := by
    have hstore : m₁.workspace.store = m.workspace.store := hm₁.store
    exact show J m₂.workspace.store from hm₂.store ▸ hresult (hstore ▸ hm)

/-- Dispatches lines one after another, whatever comes of them. -/
def dispatchAll (I : Interpreter σ) (lines : List String) (m : Machine σ) : Machine σ :=
  lines.foldl (fun m line => (I.dispatch line m).2) m

theorem keeps_dispatchAll (hJ : Store.Endures I.shell.root J) (lines : List String)
    (m : Machine σ) (hm : J m.workspace.store) :
    J (I.dispatchAll lines m).workspace.store := by
  induction lines generalizing m with
  | nil => exact hm
  | cons line rest ih => exact ih _ ((contract_keeps hJ).dispatch line m hm)

end Interpreter

end CommandShell
