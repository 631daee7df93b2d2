import CommandShell.Proofs.Run.Composure

/-!
# Where lines are dispatched from

Scripts are run by one built-in command, which may be called through another one that hands calls
over.  Other handlers may dispatch lines too, and do with a status what they like.  `Orderly` says
of the events of a run that none does, and `Calm` that every dispatch answers with a status.

Both are known of every run if the handlers of the application are known: it is orderly if they
call nothing, and calm if they do not abort and leave a word when they fail.
-/

namespace CommandShell

open Machine

variable {σ ρ τ : Type}

/-! ## Events -/

/-- The handler is one of the two through which scripts are run: the one that runs a script,
and the one that hands a call over to a sub-command. -/
def Call.isConduit (call : Call) : Bool :=
  call.handler == .builtin .source || call.handler == .builtin .log

/-- How much a call adds to the number of handlers under way that must not dispatch. -/
def Call.weight (call : Call) : Nat :=
  if call.isConduit then 0 else 1

/-- Lines are dispatched only while no handler but the two is under way; `busy` counts the
others that were under way before. -/
def Orderly : (busy : Nat) → List Event → Prop
  | _, [] => True
  | busy, .called call :: rest => Orderly (busy + call.weight) rest
  | busy, .returned call _ _ :: rest => Orderly (busy - call.weight) rest
  | busy, .entered _ _ :: rest => busy = 0 ∧ Orderly busy rest
  | busy, .left _ _ _ :: rest => Orderly busy rest
  | busy, .remark _ :: rest => Orderly busy rest

instance decidableOrderly : (busy : Nat) → (events : List Event) → Decidable (Orderly busy events)
  | _, [] => isTrue trivial
  | busy, .called call :: rest => decidableOrderly (busy + call.weight) rest
  | busy, .returned call _ _ :: rest => decidableOrderly (busy - call.weight) rest
  | busy, .entered _ _ :: rest =>
    have := decidableOrderly busy rest
    inferInstanceAs (Decidable (busy = 0 ∧ Orderly busy rest))
  | busy, .left _ _ _ :: rest => decidableOrderly busy rest
  | busy, .remark _ :: rest => decidableOrderly busy rest

/-- A dispatch ends without a status. -/
def Event.isUnanswered : Event → Bool
  | .left _ _ (.error _) => true
  | _ => false

/-- Every dispatch answers with a status: no handler that one calls ends by an abort, or fails
with none of its words left. -/
def Calm (events : List Event) : Prop :=
  ∀ event ∈ events, event.isUnanswered = false

instance (events : List Event) : Decidable (Calm events) :=
  inferInstanceAs (Decidable (∀ event ∈ events, event.isUnanswered = false))

theorem calm_append {first second : List Event} :
    Calm (first ++ second) ↔ Calm first ∧ Calm second :=
  List.forall_mem_append

theorem Calm.tail {event : Event} {rest : List Event} (h : Calm (event :: rest)) : Calm rest :=
  fun later hmem => h later (List.mem_cons_of_mem _ hmem)

section

variable {limit : Int} {depth : Nat} {events : List Event}

/-- After an activity as many handlers are under way as before. -/
theorem Activity.orderly_append (h : Activity limit depth events) {busy : Nat}
    {rest : List Event} :
    Orderly busy (events ++ rest) ↔ Orderly busy events ∧ Orderly busy rest := by
  induction h generalizing busy rest with
  | idle => simp [Orderly]
  | remark text _ ih => simpa [Orderly] using ih
  | call call outcome left _ _ _ ihinner ihrest =>
    simp [Orderly, ihinner, ihrest, and_assoc]
  | refused line _ _ ih => simp [Orderly, ih, and_assoc]
  | answered line status _ _ ih => simp [Orderly, ih, and_assoc]
  | dispatched line call outcome left _ _ _ _ ihinner ihrest =>
    simp [Orderly, ihinner, ihrest, and_assoc]

theorem orderly_remarks (busy : Nat) (texts : List String) :
    Orderly busy (texts.map Event.remark) := by
  induction texts with
  | nil => trivial
  | cons text rest ih => exact ih

/-- A dispatch of a calm run answers. -/
theorem Dispatched.eq_ok {line : String} {outcome : Except Fault Int}
    (h : Dispatched limit depth line outcome events) (hcalm : Calm events) :
    ∃ status, outcome = .ok status := by
  have hlast : .left (depth + 1) line outcome ∈ events := by
    cases h <;> simp
  cases outcome with
  | ok status => exact ⟨status, rfl⟩
  | error fault => cases hcalm _ hlast

end

/-! ## Routines -/

/-- `Q` is known of what happens in the course of the call. -/
def Spec.shows (Q : List Event → Prop) : Spec σ := fun m result => Q (m.since result.2)

/-- `Q` passes from the parts of a run to the whole. -/
structure Gathers (Q : List Event → Prop) : Prop where
  nil : Q []
  remark : ∀ text, Q [.remark text]
  append : ∀ {limit : Int} {depth : Nat} {first second : List Event},
    Activity limit depth first → Q first → Q second → Q (first ++ second)

theorem gathers_orderly : Gathers (Orderly 0) :=
  ⟨trivial, fun _ => trivial, fun hfirst h h' => hfirst.orderly_append.2 ⟨h, h'⟩⟩

theorem gathers_calm : Gathers Calm :=
  ⟨by simp [Calm], by simp [Calm, Event.isUnanswered], fun _ h h' => calm_append.2 ⟨h, h'⟩⟩

namespace Gathers

variable {Q : List Event → Prop} (hQ : Gathers Q) {limit : Int}

include hQ

theorem trans {m m₁ m₂ : Machine σ} (hfirst : Grows limit m m₁) (h : Q (m.since m₁))
    (hsecond : Grows limit m₁ m₂) (h' : Q (m₁.since m₂)) : Q (m.since m₂) := by
  rw [hfirst.since_trans hsecond]
  exact hQ.append hfirst.since.2 h h'

/-- What is known of the calls of a routine is known of the routine. -/
theorem run {depth : Nat} {re : Reentry σ}
    (hre : re.Meets depth (fun _ => (Spec.nests limit).and (Spec.shows Q))
      ((Spec.nests limit).and (Spec.shows Q)))
    (x : Routine σ ρ) (m : Machine σ) (hm : m.depth = depth) : Q (m.since (x.run re m).2) := by
  have hnests : re.Nests limit depth := hre.mono (fun _ _ _ h => h.1) (fun _ _ h => h.1)
  induction x generalizing m with
  | done r => simpa [Routine.run] using hQ.nil
  | raise fault => simpa [Routine.run] using hQ.nil
  | look next ih => exact ih _ m hm
  | put w next ih => exact ih _ hm
  | rewrite words next ih => exact ih (m.given words) hm
  | tell note next ih =>
    have htell := logsOnly_tell m note
    rw [htell.since_eq]
    exact ih _ (htell.depth.trans hm)
  | logging change next ih =>
    have hlog := logsOnly_changeLog m change
    rw [Routine.run_logging, hlog.since_eq]
    exact ih _ _ (hlog.depth.trans hm)
  | depth next ih => exact ih _ m hm
  | remark text next ih =>
    have hremark : Grows limit m (m.record (.remark text)) :=
      ⟨rfl, [.remark text], rfl, .remark text (.idle _)⟩
    have hsince : m.since (m.record (.remark text)) = [.remark text] := since_eq rfl
    exact hQ.trans hremark (hsince ▸ hQ.remark text) (Routine.grows_run hnests _ _ hm) (ih _ hm)
  | dispatch line next ih =>
    obtain ⟨hcall, hshows⟩ := hre.dispatch line m hm
    have hdepth := hcall.depth.trans hm
    exact hQ.trans hcall hshows (Routine.grows_run hnests _ _ hdepth) (ih _ _ hdepth)
  | exec c args next ih =>
    obtain ⟨hcall, hshows⟩ := hre.exec c args (m.given args) hm
    have hdepth := hcall.depth.trans hm
    exact hQ.trans (hcall.of_given.given m.words) hshows (Routine.grows_run hnests _ _ hdepth)
      (ih _ _ _ hdepth)
  | delegate c next ih =>
    obtain ⟨hcall, hshows⟩ := hre.delegate c m hm
    have hdepth := hcall.depth.trans hm
    exact hQ.trans (hcall.given m.words) hshows (Routine.grows_run hnests _ _ hdepth)
      (ih _ _ hdepth)
  | launch program next ih => exact ih _ _ hm

end Gathers

namespace Routine

/-- The routine calls no command and dispatches no line. -/
inductive CallsNothing : Routine σ ρ → Prop
  | done (r : ρ) : CallsNothing (done r)
  | raise (fault : Fault) : CallsNothing (raise fault)
  | look {next : Workspace σ → Routine σ ρ} (hnext : ∀ w, (next w).CallsNothing) :
    CallsNothing (look next)
  | put (w : Workspace σ) {next : Routine σ ρ} (hnext : next.CallsNothing) :
    CallsNothing (put w next)
  | rewrite (words : List String) {next : Routine σ ρ} (hnext : next.CallsNothing) :
    CallsNothing (rewrite words next)
  | tell (note : Note) {next : Routine σ ρ} (hnext : next.CallsNothing) :
    CallsNothing (tell note next)
  | logging (change : Journal.Change) {next : Except Fault Journal → Routine σ ρ}
    (hnext : ∀ outcome, (next outcome).CallsNothing) : CallsNothing (logging change next)
  | depth {next : Nat → Routine σ ρ} (hnext : ∀ n, (next n).CallsNothing) :
    CallsNothing (depth next)
  | remark (text : String) {next : Routine σ ρ} (hnext : next.CallsNothing) :
    CallsNothing (remark text next)
  | launch (program : Session σ LaunchReport) {next : Except Fault LaunchReport → Routine σ ρ}
    (hnext : ∀ outcome, (next outcome).CallsNothing) : CallsNothing (launch program next)

theorem CallsNothing.bind {x : Routine σ ρ} {f : ρ → Routine σ τ} (hx : x.CallsNothing)
    (hf : ∀ r, (f r).CallsNothing) : (x >>= f).CallsNothing := by
  change (x.bind f).CallsNothing
  induction hx with
  | done r => exact hf r
  | raise fault => exact .raise fault
  | look _ ih => exact .look ih
  | put w _ ih => exact .put w ih
  | rewrite words _ ih => exact .rewrite words ih
  | tell note _ ih => exact .tell note ih
  | logging change _ ih => exact .logging change ih
  | depth _ ih => exact .depth ih
  | remark text _ ih => exact .remark text ih
  | launch program _ ih => exact .launch program ih

theorem composes_callsNothing :
    Composes (fun _ => True) fun {ρ : Type} (x : Routine σ ρ) => x.CallsNothing where
  admits _ _ := trivial
  done := .done
  raise fault _ := .raise fault
  look := .look
  put := .put
  tell := .tell
  logging change _ _ hnext := .logging change fun outcome => hnext outcome fun _ _ => trivial
  bind := .bind

/-- What it leaves in the trace are remarks. -/
theorem CallsNothing.trace_run {x : Routine σ ρ} (hx : x.CallsNothing) (re : Reentry σ)
    (m : Machine σ) :
    ∃ texts : List String,
      (x.run re m).2.trace = (texts.map Event.remark).reverse ++ m.trace := by
  induction hx generalizing m with
  | done r => exact ⟨[], rfl⟩
  | raise fault => exact ⟨[], rfl⟩
  | look _ ih => exact ih _ m
  | put w _ ih => exact ih _
  | rewrite words _ ih => exact ih (m.given words)
  | tell note _ ih =>
    obtain ⟨texts, htrace⟩ := ih (m.tell note)
    exact ⟨texts, by rw [run, htrace, (logsOnly_tell m note).trace]⟩
  | logging change _ ih =>
    obtain ⟨texts, htrace⟩ :=
      ih ((m.changeLog change).1.map fun _ => (m.changeLog change).2.journal) (m.changeLog change).2
    exact ⟨texts, by rw [run_logging, htrace, (logsOnly_changeLog m change).trace]⟩
  | depth _ ih => exact ih _ m
  | remark text _ ih =>
    obtain ⟨texts, htrace⟩ := ih (m.record (.remark text))
    exact ⟨text :: texts, by simp [run, htrace]⟩
  | launch program _ ih => exact ih _ _

theorem CallsNothing.orderly {x : Routine σ ρ} (hx : x.CallsNothing) (re : Reentry σ)
    (m : Machine σ) (busy : Nat) : Orderly busy (m.since (x.run re m).2) := by
  obtain ⟨texts, htrace⟩ := hx.trace_run re m
  rw [since_eq htrace]
  exact orderly_remarks busy texts

end Routine

/-! ## Every run -/

namespace Interpreter

variable {I : Interpreter σ}

theorem callsNothing_routineFor (h : ∀ name call, (I.handlers name call).CallsNothing) {call : Call}
    (hcall : call.isConduit = false) : (I.routineFor call).CallsNothing := by
  rw [routineFor]
  cases hhandler : call.handler with
  | builtin b =>
    rw [Call.isConduit, hhandler] at hcall
    refine Routine.composes_callsNothing.builtin I.shell call ?_ ?_ <;> rintro rfl <;> cases hcall
  | custom name => exact h name call

theorem contract_orderly (h : ∀ name call, (I.handlers name call).CallsNothing) :
    I.Contract (fun _ => Spec.shows (Orderly 0)) (Spec.shows (Orderly 0)) where
  tooMany m := by simp [Spec.shows, Orderly]
  silent m := by simp [Spec.shows, Orderly]
  called re m c handler args _ hre := by
    have hre' : re.Meets m.depth
        (fun _ => (Spec.nests I.shell.maxDepth).and (Spec.shows (Orderly 0)))
        ((Spec.nests I.shell.maxDepth).and (Spec.shows (Orderly 0))) :=
      hre.mono (fun _ _ _ h => ⟨h.1.grows, h.2⟩) (fun _ _ h => h)
    have hnests : re.Nests I.shell.maxDepth m.depth :=
      hre'.mono (fun _ _ _ h => h.1) (fun _ _ h => h.1)
    generalize callOf m c handler args = call
    have hrun := Routine.grows_run hnests (I.routineFor call) (m.taking call) rfl
    rw [Spec.shows, I.since_answer hnests, Orderly, hrun.since.2.orderly_append]
    refine ⟨?_, trivial⟩
    cases hconduit : call.isConduit with
    | true =>
      rw [Call.weight, if_pos hconduit]
      exact gathers_orderly.run hre' (I.routineFor call) (m.taking call) rfl
    | false => exact (callsNothing_routineFor h hconduit).orderly re (m.taking call) _
  answered line m m₁ status hm₁ _ := by
    rw [Spec.shows, since_answered hm₁]
    exact ⟨rfl, trivial⟩
  dispatched line m m₁ result m₂ _ hm₁ hcall hresult hm₂ _ := by
    have hgrows := hcall.grows hm₁.depth
    rw [Spec.shows, since_dispatched hm₁ hgrows hm₂]
    exact ⟨rfl, hgrows.since.2.orderly_append.2 ⟨hresult, trivial⟩⟩

/-- If the handlers of the application call nothing, lines are dispatched by the two commands only
through which scripts are run. -/
theorem orderly_perform (h : ∀ name call, (I.handlers name call).CallsNothing) (x : Routine σ ρ)
    (m : Machine σ) : Orderly 0 (m.since (I.perform x m).2) :=
  gathers_orderly.run (((contract_orderly h).perform m.depth).mono
    (fun _ _ _ h => ⟨h.1.grows, h.2⟩) (fun _ _ h => h)) x m rfl

theorem contract_calm (h : ∀ name call, (I.handlers name call).Composed) (hleaves : I.LeavesWord) :
    I.Contract (fun _ => Spec.composed.and (Spec.shows Calm))
      (Spec.composed.and (Spec.shows Calm)) where
  tooMany m := ⟨rfl, by simp [Spec.shows, Calm]⟩
  silent m := ⟨rfl, by simp [Spec.shows, Calm]⟩
  called re m c handler args hhandler hre := by
    have hnests : re.Nests I.shell.maxDepth m.depth :=
      hre.mono (fun _ _ _ h => h.1.grows) (fun _ _ h => h.1)
    refine ⟨(contract_composed h).called re m c handler args hhandler
      (hre.mono (fun _ _ _ h => ⟨h.1, h.2.1⟩) (fun _ _ h => ⟨h.1, h.2.1⟩)), ?_⟩
    generalize callOf m c handler args = call
    have hrun := gathers_calm.run
      (hre.mono (fun _ _ _ h => ⟨h.1.grows, h.2.2⟩) (fun _ _ h => ⟨h.1, h.2.2⟩))
      (I.routineFor call) (m.taking call) rfl
    rw [Spec.shows, I.since_answer hnests, Calm, List.forall_mem_cons]
    exact ⟨rfl, calm_append.2 ⟨hrun, by simp [Calm, Event.isUnanswered]⟩⟩
  answered line m m₁ status hm₁ _ := by
    refine ⟨rfl, ?_⟩
    rw [Spec.shows, since_answered hm₁]
    simp [Calm, Event.isUnanswered]
  dispatched line m m₁ result m₂ hlimit hm₁ hcall hresult hm₂ hleft := by
    refine ⟨(abortOf_settled _ result.1).trans hresult.1, ?_⟩
    obtain ⟨status, hstatus⟩ : ∃ status, settled result.2.words result.1 = .ok status := by
      cases houtcome : result.1 with
      | ok status => exact ⟨status, rfl⟩
      | error fault =>
        refine ⟨_, settled_of_word (hleft hleaves fault houtcome) ?_⟩
        have hfault := hresult.1
        rw [Spec.composed, houtcome, abortOf] at hfault
        simpa using hfault
    rw [Spec.shows, since_dispatched hm₁ (hcall.grows hm₁.depth) hm₂, hstatus, Calm,
      List.forall_mem_cons]
    exact ⟨rfl, calm_append.2 ⟨hresult.2, by simp [Calm, Event.isUnanswered]⟩⟩

/-- If the handlers of the application do not abort, and leave a word when they fail, every
dispatch of a run answers. -/
theorem calm_perform (h : ∀ name call, (I.handlers name call).Composed) (hleaves : I.LeavesWord)
    (x : Routine σ ρ) (m : Machine σ) : Calm (m.since (I.perform x m).2) :=
  gathers_calm.run (((contract_calm h hleaves).perform m.depth).mono
    (fun _ _ _ h => ⟨h.1.grows, h.2.2⟩) (fun _ _ h => ⟨h.1, h.2.2⟩)) x m rfl

end Interpreter

end CommandShell
