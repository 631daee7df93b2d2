import CommandShell.Dispatch
import Mathlib.Tactic.SplitIfs

/-!
# Traces of runs

A run is known by the events that it adds to the trace.  They are nested like the calls
that they record: a dispatch that begins comes to an end, and so does a handler that is
called, and what happens between the two happens one level further down.

`Activity` is the grammar of such lists of events.  It also says what each dispatch and
each call has to do with the limit on nesting, so that properties of runs can be read
off the grammar, by induction on it, without looking at the interpreter again.

## Main definitions

* `Machine.LogsOnly` — two states differ in the log, the screen and the files at most.
* `Machine.since` — the events between two states, earliest first.
* `settled` — what a dispatch makes of the outcome of a call.
* `Activity` — the grammar of events at a depth.
* `Dispatched` — the events of one dispatch.
* `Machine.Grows` — a run that ends at the depth where it began.
-/

namespace CommandShell

variable {σ : Type}

namespace Machine

/-! ## Keeping the log -/

/-- The two states differ in the log, the screen and the files at most.  Nothing is recorded in the
trace. -/
structure LogsOnly (m m' : Machine σ) : Prop where
  depth : m'.depth = m.depth
  words : m'.words = m.words
  trace : m'.trace = m.trace
  workspace : m'.workspace = { m.workspace with disk := m'.workspace.disk }

theorem LogsOnly.refl (m : Machine σ) : LogsOnly m m := ⟨rfl, rfl, rfl, rfl⟩

theorem LogsOnly.trans {m m' m'' : Machine σ} (h : LogsOnly m m') (h' : LogsOnly m' m'') :
    LogsOnly m m'' where
  depth := h'.depth.trans h.depth
  words := h'.words.trans h.words
  trace := h'.trace.trans h.trace
  workspace := by
    rw [h'.workspace, h.workspace]

theorem LogsOnly.store {m m' : Machine σ} (h : LogsOnly m m') :
    m'.workspace.store = m.workspace.store := by
  rw [h.workspace]

theorem LogsOnly.stopped {m m' : Machine σ} (h : LogsOnly m m') :
    m'.workspace.stopped = m.workspace.stopped := by
  rw [h.workspace]

theorem logsOnly_tell (m : Machine σ) (note : Note) : LogsOnly m (m.tell note) := by
  unfold tell
  generalize m.journal.deliveries note = deliveries
  induction deliveries generalizing m with
  | nil => exact .refl m
  | cons delivery rest ih =>
    have hfirst : LogsOnly m (m.deliver delivery) := by
      cases delivery <;> exact ⟨rfl, rfl, rfl, rfl⟩
    exact hfirst.trans (ih _)

theorem logsOnly_tellAll (m : Machine σ) (notes : List Note) : LogsOnly m (m.tellAll notes) := by
  unfold tellAll
  induction notes generalizing m with
  | nil => exact .refl m
  | cons note rest ih => exact (logsOnly_tell m note).trans (ih _)

theorem logsOnly_changeLog (m : Machine σ) (change : Journal.Change) :
    LogsOnly m (m.changeLog change).2 := by
  cases change with
  | keep => exact .refl m
  | restart path debug => exact ⟨rfl, rfl, rfl, rfl⟩
  | obtain name level =>
    have h := logsOnly_tellAll { m with journal := (m.journal.obtain name level).value }
      (m.journal.obtain name level).notes
    exact ⟨h.depth, h.words, h.trace, h.workspace⟩
  | level level => exact ⟨rfl, rfl, rfl, rfl⟩
  | screen enabled => exact ⟨rfl, rfl, rfl, rfl⟩
  | file path =>
    rw [changeLog]
    split
    · exact ⟨rfl, rfl, rfl, rfl⟩
    · exact .refl m

/-! ## Events between two states -/

@[simp] theorem depth_record (m : Machine σ) (event : Event) : (m.record event).depth = m.depth :=
  rfl

@[simp] theorem trace_record (m : Machine σ) (event : Event) :
    (m.record event).trace = event :: m.trace := rfl

@[simp] theorem depth_given (m : Machine σ) (words : List String) :
    (m.given words).depth = m.depth := rfl

@[simp] theorem trace_given (m : Machine σ) (words : List String) :
    (m.given words).trace = m.trace := rfl

@[simp] theorem workspace_given (m : Machine σ) (words : List String) :
    (m.given words).workspace = m.workspace := rfl

@[simp] theorem words_given (m : Machine σ) (words : List String) :
    (m.given words).words = words := rfl

@[simp] theorem given_words (m : Machine σ) : m.given m.words = m := rfl

/-- The state in which the handler of a call begins: it has the words of the call. -/
def taking (m : Machine σ) (call : Call) : Machine σ :=
  (m.given call.args).record (.called call)

@[simp] theorem trace_taking (m : Machine σ) (call : Call) :
    (m.taking call).trace = .called call :: m.trace := rfl

/-- The state in which the handler of a call has come back. -/
def returning (m : Machine σ) (call : Call) (outcome : Except Fault Int) : Machine σ :=
  m.record (.returned call outcome m.words)

/-- The events between two states of a run, earliest first. -/
def since (before after : Machine σ) : List Event :=
  (after.trace.take (after.trace.length - before.trace.length)).reverse

theorem since_eq {m m' : Machine σ} {events : List Event}
    (h : m'.trace = events.reverse ++ m.trace) : m.since m' = events := by
  simp [since, h]

@[simp] theorem since_self (m : Machine σ) : m.since m = [] := by
  simp [since]

end Machine

/-! ## The grammar -/

/-- What a dispatch makes of the outcome of the command that it called, which left these of its
words: an ordinary failure becomes a status, unless there is no word to name it by; an abort is
passed on. -/
def settled (left : List String) : Except Fault Int → Except Fault Int
  | .ok status => .ok status
  | .error fault =>
    if fault.isAbort then .error fault
    else if left = [] then .error .noWords
    else .ok Status.handlerFailed

theorem settled_of_word {left : List String} {fault : Fault} (hleft : left ≠ [])
    (hfault : fault.isAbort = false) :
    settled left (.error fault) = .ok Status.handlerFailed := by
  simp [settled, hleft, hfault]

/-- The events that can happen at depth `depth`, where dispatches may nest `limit` deep.  A handler
leaves a remark or calls another command; a dispatch is refused at the limit, or calls no handler,
or calls one. -/
inductive Activity (limit : Int) : Nat → List Event → Prop
  | idle (depth : Nat) : Activity limit depth []
  | remark {depth : Nat} {rest : List Event} (text : String) (hrest : Activity limit depth rest) :
    Activity limit depth (.remark text :: rest)
  | call {depth : Nat} {inner rest : List Event} (call : Call) (outcome : Except Fault Int)
    (left : List String) (hdepth : call.depth = depth) (hinner : Activity limit depth inner)
    (hrest : Activity limit depth rest) :
    Activity limit depth (.called call :: (inner ++ .returned call outcome left :: rest))
  | refused {depth : Nat} {rest : List Event} (line : String) (hlimit : limit ≤ depth)
    (hrest : Activity limit depth rest) :
    Activity limit depth (.entered (depth + 1) line ::
      .left (depth + 1) line (.ok Status.recursionLimit) :: rest)
  | answered {depth : Nat} {rest : List Event} (line : String) (status : Int)
    (hlimit : depth < limit) (hrest : Activity limit depth rest) :
    Activity limit depth (.entered (depth + 1) line ::
      .left (depth + 1) line (.ok status) :: rest)
  | dispatched {depth : Nat} {inner rest : List Event} (line : String) (call : Call)
    (outcome : Except Fault Int) (left : List String) (hlimit : depth < limit)
    (hdepth : call.depth = depth + 1) (hinner : Activity limit (depth + 1) inner)
    (hrest : Activity limit depth rest) :
    Activity limit depth (.entered (depth + 1) line :: .called call ::
      (inner ++ .returned call outcome left ::
        .left (depth + 1) line (settled left outcome) :: rest))

theorem Activity.append {limit : Int} {depth : Nat} {first second : List Event}
    (h : Activity limit depth first) (h' : Activity limit depth second) :
    Activity limit depth (first ++ second) := by
  induction h with
  | idle => exact h'
  | remark text _ ih => exact .remark text (ih h')
  | call call outcome left hdepth hinner _ _ ih =>
    simpa using Activity.call call outcome left hdepth hinner (ih h')
  | refused line hlimit _ ih => exact .refused line hlimit (ih h')
  | answered line status hlimit _ ih => exact .answered line status hlimit (ih h')
  | dispatched line call outcome left hlimit hdepth hinner _ _ ih =>
    simpa using Activity.dispatched line call outcome left hlimit hdepth hinner (ih h')

/-- The events of one dispatch at depth `depth`, with its outcome.  It is refused, it calls no
handler, or it calls one and settles what comes back. -/
inductive Dispatched (limit : Int) (depth : Nat) (line : String) :
    Except Fault Int → List Event → Prop
  | refused (hlimit : limit ≤ depth) :
    Dispatched limit depth line (.ok Status.recursionLimit) [.entered (depth + 1) line,
      .left (depth + 1) line (.ok Status.recursionLimit)]
  | answered (status : Int) (hlimit : depth < limit) :
    Dispatched limit depth line (.ok status) [.entered (depth + 1) line,
      .left (depth + 1) line (.ok status)]
  | called (call : Call) (outcome : Except Fault Int) (left : List String) {inner : List Event}
    (hlimit : depth < limit) (hdepth : call.depth = depth + 1)
    (hinner : Activity limit (depth + 1) inner) :
    Dispatched limit depth line (settled left outcome)
      (.entered (depth + 1) line :: .called call ::
        (inner ++ [.returned call outcome left, .left (depth + 1) line (settled left outcome)]))

theorem Dispatched.activity {limit : Int} {depth : Nat} {line : String}
    {outcome : Except Fault Int} {events : List Event}
    (h : Dispatched limit depth line outcome events) : Activity limit depth events := by
  cases h with
  | refused hlimit => exact .refused line hlimit (.idle _)
  | answered status hlimit => exact .answered line status hlimit (.idle _)
  | called call outcome left hlimit hdepth hinner =>
    exact .dispatched line call outcome left hlimit hdepth hinner (.idle _)

/-! ## Runs -/

namespace Machine

/-- A run from one state to another: it ends at the depth where it began, and its events
are well nested. -/
structure Grows (limit : Int) (m m' : Machine σ) : Prop where
  depth : m'.depth = m.depth
  trace : ∃ events, m'.trace = events.reverse ++ m.trace ∧ Activity limit m.depth events

theorem LogsOnly.grows {m m' : Machine σ} (h : LogsOnly m m') (limit : Int) : Grows limit m m' :=
  ⟨h.depth, [], by simpa using h.trace, .idle _⟩

theorem Grows.given {limit : Int} {m m' : Machine σ} (h : Grows limit m m') (words : List String) :
    Grows limit m (m'.given words) :=
  ⟨h.depth, h.trace⟩

theorem Grows.of_given {limit : Int} {m m' : Machine σ} {words : List String}
    (h : Grows limit (m.given words) m') : Grows limit m m' :=
  ⟨h.depth, h.trace⟩

theorem Grows.refl (limit : Int) (m : Machine σ) : Grows limit m m :=
  (LogsOnly.refl m).grows limit

theorem Grows.trans {limit : Int} {m m' m'' : Machine σ} (h : Grows limit m m')
    (h' : Grows limit m' m'') : Grows limit m m'' := by
  obtain ⟨hdepth, events, htrace, hactivity⟩ := h
  obtain ⟨hdepth', events', htrace', hactivity'⟩ := h'
  refine ⟨hdepth'.trans hdepth, events ++ events', ?_, hactivity.append (hdepth ▸ hactivity')⟩
  rw [htrace', htrace, List.reverse_append, List.append_assoc]

theorem Grows.since {limit : Int} {m m' : Machine σ} (h : Grows limit m m') :
    m'.trace = (m.since m').reverse ++ m.trace ∧ Activity limit m.depth (m.since m') := by
  obtain ⟨-, events, htrace, hactivity⟩ := h
  rw [since_eq htrace]
  exact ⟨htrace, hactivity⟩

theorem Grows.since_trans {limit : Int} {m m' m'' : Machine σ} (h : Grows limit m m')
    (h' : Grows limit m' m'') : m.since m'' = m.since m' ++ m'.since m'' := by
  apply since_eq
  rw [List.reverse_append, List.append_assoc, ← h.since.1, ← h'.since.1]

theorem LogsOnly.since_eq {m m' : Machine σ} (h : LogsOnly m m') (m'' : Machine σ) :
    m.since m'' = m'.since m'' := by
  rw [Machine.since, Machine.since, h.trace]

end Machine

end CommandShell
