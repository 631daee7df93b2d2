import CommandShell.Proofs.Journal.Destinations
import CommandShell.Proofs.Line.Terminator
import CommandShell.Proofs.Run.Oblivious
import CommandShell.Proofs.Run.Script

/-!
# Scripts and lines that are typed

A script hands its lines over with the line feeds that end them, a prompt without.  If the
line feed is a delimiter, the two make the same calls and leave the same behind, except for
what they say about the lines themselves: the dispatcher quotes the line, and the script tells
what came of it.  What is said so may stand on the screen, where nobody looks.  In a file it
could be read again, so it must not get there, and it does not at the levels that loggers have
at first.
-/

namespace CommandShell

variable {σ α : Type}

/-! ## States that are alike -/

/-- The call that the event is the beginning of. -/
def Event.call? : Event → Option Call
  | .called call => some call
  | _ => none

namespace Machine

/-- The calls that were made, latest first. -/
def calls (m : Machine σ) : List Call := m.trace.filterMap Event.call?

/-- The two states differ in what was shown and recorded, but the same calls were made. -/
structure Alike (m m' : Machine σ) : Prop where
  depth : m'.depth = m.depth
  words : m'.words = m.words
  workspace : m'.workspace = m.workspace
  journal : m'.journal = m.journal
  calls : m'.calls = m.calls

theorem Alike.refl (m : Machine σ) : Alike m m := ⟨rfl, rfl, rfl, rfl, rfl⟩

theorem Alike.symm {m m' : Machine σ} (h : Alike m m') : Alike m' m :=
  ⟨h.depth.symm, h.words.symm, h.workspace.symm, h.journal.symm, h.calls.symm⟩

theorem Alike.trans {m m' m'' : Machine σ} (h : Alike m m') (h' : Alike m' m'') : Alike m m'' :=
  ⟨h'.depth.trans h.depth, h'.words.trans h.words, h'.workspace.trans h.workspace,
    h'.journal.trans h.journal, h'.calls.trans h.calls⟩

/-- The state as if nothing had been shown or recorded. -/
def blank (m : Machine σ) : Machine σ := { m with screen := "", trace := [] }

theorem after_blank (m : Machine σ) : m.blank.after m.screen m.trace = m := by
  simp [blank, after]

theorem Alike.blank_eq {m m' : Machine σ} (h : Alike m m') : m'.blank = m.blank := by
  cases m
  cases m'
  obtain ⟨hdepth, hwords, hworkspace, hjournal, -⟩ := h
  simp_all [blank]

theorem alike_after {m : Machine σ} {shown shown' : String} {past past' : List Event}
    (h : past'.filterMap Event.call? = past.filterMap Event.call?) :
    Alike (m.after shown past) (m.after shown' past') := by
  refine ⟨rfl, rfl, rfl, rfl, ?_⟩
  simp [Machine.calls, after, h]

end Machine

open Machine

/-- What does not look at what was shown and recorded goes the same way from alike states. -/
theorem Session.Oblivious.alike {x : Session σ α} (hx : x.Oblivious) {m m' : Machine σ}
    (h : Alike m m') : (x m').1 = (x m).1 ∧ Alike (x m).2 (x m').2 := by
  have hm := hx m.screen m.trace m.blank
  have hm' := hx m'.screen m'.trace m.blank
  rw [after_blank] at hm
  rw [← h.blank_eq, after_blank, h.blank_eq] at hm'
  rw [hm, hm']
  exact ⟨rfl, alike_after h.calls⟩

/-! ## What is said about lines -/

namespace Journal

/-- Notes of this channel and level reach no file. -/
def Unfiled (j : Journal) (channel : String) (level : Int) : Prop :=
  ∀ message cause place line, .file place line ∉ j.deliveries ⟨channel, level, message, cause⟩

/-- What the dispatcher says about lines, and a script about what came of them, reaches no
file. -/
structure Quiet (j : Journal) : Prop where
  interpreter : j.Unfiled Channel.interpreter Level.verbose
  builtins : j.Unfiled Channel.builtins Level.info

/-- What a logger does not let pass reaches no file. -/
theorem unfiled_of_silent {j : Journal} {channel : String} {level : Int}
    (h : ∀ logger ∈ j.find? channel, j.passes logger level = false) : j.Unfiled channel level := by
  intro message cause place line hmem
  cases hfind : j.find? channel with
  | none => simp [deliveries, hfind] at hmem
  | some logger => simp [deliveries, hfind, h logger hfind] at hmem

end Journal

/-- A note that reaches no file leaves a trace on the screen at most. -/
theorem Machine.alike_tell {m : Machine σ} {channel message : String} {level : Int}
    {cause : Option String} (h : m.journal.Unfiled channel level) :
    Alike m (m.tell ⟨channel, level, message, cause⟩) := by
  have hfile := h message cause
  unfold tell
  generalize m.journal.deliveries ⟨channel, level, message, cause⟩ = deliveries at hfile
  clear h
  induction deliveries generalizing m with
  | nil => exact .refl m
  | cons delivery rest ih =>
    have hfirst : Alike m (m.deliver delivery) := by
      cases delivery with
      | screen line => exact ⟨rfl, rfl, rfl, rfl, rfl⟩
      | file place line => exact absurd (by simp) (hfile place line)
    refine hfirst.trans (ih fun place line hmem => hfile place line (by simp [hmem]))

namespace Interpreter

variable {I : Interpreter σ}

/-! ## One line -/

theorem alike_enter {m m' : Machine σ} (h : Alike m m') (line line' : String) :
    Alike (enter line m) (enter line' m') :=
  ⟨congrArg (· + 1) h.depth, h.words, h.workspace, h.journal, h.calls⟩

theorem alike_leave {result result' : Except Fault Int × Machine σ}
    (h : Alike result.2 result'.2) (line line' : String) :
    Alike (leave line result).2 (leave line' result').2 :=
  ⟨congrArg (· - 1) h.depth, h.words, h.workspace, h.journal, h.calls⟩

theorem exists_alike_enter {m : Machine σ} (hquiet : m.journal.Quiet) (line : String)
    (body : Session σ Int) :
    ∃ m₁, Alike (enter line m) m₁ ∧ nested line body m = leave line (body m₁) :=
  ⟨_, alike_tell hquiet.interpreter, rfl⟩

/-- What runs within a dispatch does the same in alike states, whatever the dispatcher says
about the line. -/
theorem alike_nested {body : Session σ Int} (hbody : body.Oblivious) {m m' : Machine σ}
    (hquiet : m.journal.Quiet) (h : Alike m m') (line line' : String) :
    (nested line' body m').1 = (nested line body m).1 ∧
      Alike (nested line body m).2 (nested line' body m').2 := by
  have hquiet' : m'.journal.Quiet := h.journal ▸ hquiet
  obtain ⟨m₁, hm₁, heq⟩ := exists_alike_enter hquiet line body
  obtain ⟨m₁', hm₁', heq'⟩ := exists_alike_enter hquiet' line' body
  obtain ⟨houtcome, hafter⟩ :=
    hbody.alike (hm₁.symm.trans ((alike_enter h line line').trans hm₁'))
  rw [heq, heq']
  exact ⟨houtcome, alike_leave hafter line line'⟩

variable (hI : ∀ name call, (I.handlers name call).Oblivious)

include hI

/-- **One line**: where the line feed is a delimiter, a line and the same without its end do
the same in alike states. -/
theorem alike_dispatch_bare (hnewline : isDelimiter I.shell.rules.delimiters '\n' = true)
    {m m' : Machine σ} (hquiet : m.journal.Quiet) (h : Alike m m') (line : String) :
    (I.dispatch (Text.bare line) m').1 = (I.dispatch line m).1 ∧
      Alike (I.dispatch line m).2 (I.dispatch (Text.bare line) m').2 := by
  have hbody : I.runLine I.dispatch (Text.bare line) = I.runLine I.dispatch line := by
    funext m
    simp only [runLine, tokenize_bare hnewline]
  rw [I.dispatch_eq, I.dispatch_eq, hbody, h.depth]
  refine alike_nested ?_ hquiet h line (Text.bare line)
  split_ifs
  · exact oblivious_runLine hI (oblivious_dispatch hI) line
  · exact oblivious_refuse

omit hI

/-! ## Many lines -/

variable (I) in
/-- Dispatches lines one after another, as a prompt does, until one ends by an abort. -/
def dispatchEach : List String → Session σ (List Int)
  | [] => Session.pure []
  | line :: rest => Session.bind (I.dispatch line) fun status =>
    Session.bind (dispatchEach rest) fun statuses => Session.pure (status :: statuses)

section

variable {line : String} {m m₁ : Machine σ}

theorem dispatchEach_of_error {fault : Fault} (h : I.dispatch line m = (.error fault, m₁))
    (rest : List String) : I.dispatchEach (line :: rest) m = (.error fault, m₁) := by
  rw [dispatchEach, Session.bind, h]

theorem dispatchEach_of_ok {status : Int} (h : I.dispatch line m = (.ok status, m₁))
    (rest : List String) :
    I.dispatchEach (line :: rest) m =
      ((I.dispatchEach rest m₁).1.map (status :: ·), (I.dispatchEach rest m₁).2) := by
  rw [dispatchEach, Session.bind, h]
  dsimp only
  rw [Session.bind]
  cases I.dispatchEach rest m₁ with
  | mk outcome m₂ => cases outcome <;> rfl

end

include hI in
/-- The lines of a script, and the same lines typed without their ends. -/
theorem alike_runLines (hnewline : isDelimiter I.shell.rules.delimiters '\n' = true)
    {exec : CommandId → List String → Session σ Int} {delegate : CommandId → Session σ Int}
    (lines : List String) (soFar : Int) {m m' : Machine σ} (h : Alike m m')
    (hquiet : ∀ k, (I.dispatchEach ((lines.map Text.bare).take k) m').2.journal.Quiet) :
    ((Routine.runLines soFar lines).run ⟨I.dispatch, exec, delegate⟩ m).1 =
      (I.dispatchEach (lines.map Text.bare) m').1.map (List.foldl firstFailure soFar) ∧
    Alike ((Routine.runLines soFar lines).run ⟨I.dispatch, exec, delegate⟩ m).2
      (I.dispatchEach (lines.map Text.bare) m').2 := by
  induction lines generalizing soFar m m' with
  | nil => exact ⟨rfl, h⟩
  | cons line rest ih =>
    have hfirst : m.journal.Quiet := h.journal ▸ hquiet 0
    obtain ⟨houtcome, hafter⟩ := alike_dispatch_bare hI hnewline hfirst h line
    rw [Routine.runLines_cons, List.map_cons]
    cases hrun : I.dispatch line m with
    | mk outcome m₁ =>
      cases hrun' : I.dispatch (Text.bare line) m' with
      | mk outcome' m₁' =>
        rw [hrun, hrun'] at houtcome hafter
        dsimp only at houtcome hafter
        subst houtcome
        cases outcome' with
        | error fault =>
          rw [Routine.run_runLine_of_error hrun, dispatchEach_of_error hrun']
          exact ⟨rfl, hafter⟩
        | ok status =>
          have hquiet' : ∀ k,
              (I.dispatchEach ((rest.map Text.bare).take k) m₁').2.journal.Quiet := by
            intro k
            have hk := hquiet (k + 1)
            rwa [List.map_cons, List.take_succ_cons, dispatchEach_of_ok hrun'] at hk
          have hsaid : Alike (m₁.tell (Routine.resultNote line status)) m₁' := by
            have hm₁ : m₁.journal.Quiet := hafter.journal ▸ hquiet' 0
            exact (alike_tell hm₁.builtins).symm.trans hafter
          rw [Routine.run_runLine_of_ok hrun, dispatchEach_of_ok hrun']
          obtain ⟨hstatus, hrest⟩ := ih (firstFailure soFar status) hsaid hquiet'
          refine ⟨?_, hrest⟩
          rw [hstatus]
          cases (I.dispatchEach (rest.map Text.bare) m₁').1 <;> rfl

/-! ## An empty line -/

/-- Only what was said differs, and where: no call is made, and the commands and the log stay
as they are. -/
structure Idle (m m' : Machine σ) : Prop where
  calls : m'.calls = m.calls
  store : m'.workspace.store = m.workspace.store
  journal : m'.journal = m.journal

theorem Idle.refl (m : Machine σ) : Idle m m := ⟨rfl, rfl, rfl⟩

theorem Idle.trans {m m' m'' : Machine σ} (h : Idle m m') (h' : Idle m' m'') : Idle m m'' :=
  ⟨h'.calls.trans h.calls, h'.store.trans h.store, h'.journal.trans h.journal⟩

theorem idle_tell (m : Machine σ) (note : Note) : Idle m (m.tell note) :=
  ⟨by rw [Machine.calls, (logsOnly_tell m note).trace]; rfl, (logsOnly_tell m note).store,
    journal_tell m note⟩

theorem idle_tellAll (m : Machine σ) (notes : List Note) : Idle m (m.tellAll notes) :=
  ⟨by rw [Machine.calls, (logsOnly_tellAll m notes).trace]; rfl, (logsOnly_tellAll m notes).store,
    journal_tellAll m notes⟩

theorem value_tokenize_empty (rules : LineRules) : (rules.tokenize "").value = [] := by
  have hwords : wordsOf rules.delimiters "" = [] := rfl
  simp only [LineRules.tokenize, LineRules.split, LineRules.stripComment, hwords]
  split_ifs <;> simp [capped]

theorem idle_dispatch_empty (m : Machine σ) : Idle m (I.dispatch "" m).2 := by
  have hleave : ∀ result : Except Fault Int × Machine σ, Idle result.2 (leave "" result).2 :=
    fun _ => ⟨rfl, rfl, rfl⟩
  have hbody : ∀ m' : Machine σ, Idle m' ((if m.depth < I.shell.maxDepth then
      I.runLine I.dispatch "" else I.refuse) m').2 := by
    intro m'
    split_ifs
    · rw [runLine, value_tokenize_empty]
      exact (idle_tellAll m' _).trans (idle_tell _ _)
    · exact idle_tell m' _
  have henter : Idle m (enter "" m) := ⟨rfl, rfl, rfl⟩
  rw [I.dispatch_eq]
  exact henter.trans ((idle_tell _ _).trans ((hbody _).trans (hleave _)))

theorem idle_dispatchEach_concat (lines : List String) (m : Machine σ) :
    Idle (I.dispatchEach lines m).2 (I.dispatchEach (lines ++ [""]) m).2 := by
  induction lines generalizing m with
  | nil =>
    have hempty : Idle m (I.dispatch "" m).2 := idle_dispatch_empty m
    cases hrun : I.dispatch "" m with
    | mk outcome m₁ =>
      rw [hrun] at hempty
      cases outcome with
      | error fault => rwa [List.nil_append, dispatchEach_of_error hrun]
      | ok status => rwa [List.nil_append, dispatchEach_of_ok hrun]
  | cons line rest ih =>
    cases hrun : I.dispatch line m with
    | mk outcome m₁ =>
      cases outcome with
      | error fault =>
        rw [List.cons_append, dispatchEach_of_error hrun, dispatchEach_of_error hrun]
        exact .refl m₁
      | ok status =>
        rw [List.cons_append, dispatchEach_of_ok hrun, dispatchEach_of_ok hrun]
        exact ih m₁

/-- One more line feed at the end of a file adds an empty line at most. -/
theorem idle_bareLines_concat (octets : List UInt8) (m : Machine σ) :
    Idle (I.dispatchEach (bareLines octets) m).2
      (I.dispatchEach (bareLines (octets ++ [10])) m).2 := by
  rcases bareLines_concat octets with h | h
  · rw [h]
    exact .refl _
  · rw [h]
    exact idle_dispatchEach_concat _ m

theorem quiet_bareLines_concat {octets : List UInt8} {m : Machine σ}
    (hquiet : ∀ k, (I.dispatchEach ((bareLines octets).take k) m).2.journal.Quiet) (k : Nat) :
    (I.dispatchEach ((bareLines (octets ++ [10])).take k) m).2.journal.Quiet := by
  rcases bareLines_concat octets with h | h
  · rw [h]
    exact hquiet k
  · rw [h]
    by_cases hk : k ≤ (bareLines octets).length
    · rw [List.take_append_of_le_length hk]
      exact hquiet k
    · have hall := hquiet (bareLines octets).length
      rw [List.take_length] at hall
      rw [List.take_of_length_le (by simp; omega), (idle_dispatchEach_concat _ m).journal]
      exact hall

/-! ## Scripts -/

include hI in
theorem alike_runScript (hnewline : isDelimiter I.shell.rules.delimiters '\n' = true)
    {m : Machine σ} {path : String} {place : Place}
    (hopen : m.workspace.disk.openForReading (Path.clean path) = .ok place)
    (hkeeps : I.KeepsFile place (scriptLines (m.workspace.disk.contents place)) m)
    (hquiet : ∀ k, (I.dispatchEach
      ((bareLines (m.workspace.disk.contents place)).take k) m).2.journal.Quiet) :
    (I.perform (Routine.runScript path) m).1 =
      (I.dispatchEach (bareLines (m.workspace.disk.contents place)) m).1.map
        (List.foldl firstFailure Status.success) ∧
    Alike (I.perform (Routine.runScript path) m).2
      (I.dispatchEach (bareLines (m.workspace.disk.contents place)) m).2 := by
  have hlines : I.perform (Routine.runScript path) m =
      I.perform (Routine.runLines Status.success
        (scriptLines (m.workspace.disk.contents place))) m :=
    (Routine.run_runScript_of_ok hopen).trans
      (Routine.run_follow_eq _ 0 _ m (Nat.le_add_right ..) hkeeps)
  rw [hlines]
  exact alike_runLines hI hnewline _ Status.success (.refl m) hquiet

/-- **A script behaves like its lines typed at the prompt**, if the line feed is a delimiter.
Let a script keep its octets and stay readable while it runs, and let what is said about its lines
reach no file.
Then it makes the same calls, with the same words and in the same order, as its lines
dispatched one by one without the line feeds that end them; it leaves the same commands,
files, output and state of the application; and it answers with the first negative status of
these dispatches, or ends by the same abort.  A script with one more line feed at its end makes
the same calls and leaves the same commands. -/
theorem runScript_bareLines (hI : ∀ name call, (I.handlers name call).Oblivious)
    (hnewline : isDelimiter I.shell.rules.delimiters '\n' = true)
    {m : Machine σ} {path : String} {place : Place}
    (hopen : m.workspace.disk.openForReading (Path.clean path) = .ok place)
    (hkeeps : I.KeepsFile place (scriptLines (m.workspace.disk.contents place)) m)
    (hquiet : ∀ k, (I.dispatchEach
      ((bareLines (m.workspace.disk.contents place)).take k) m).2.journal.Quiet) :
    let script := I.perform (Routine.runScript path) m
    let typed := I.dispatchEach (bareLines (m.workspace.disk.contents place)) m
    script.2.calls = typed.2.calls ∧ script.2.workspace = typed.2.workspace ∧
    script.1 = typed.1.map (List.foldl firstFailure Status.success) ∧
    ∀ path' place', m.workspace.disk.openForReading (Path.clean path') = .ok place' →
      m.workspace.disk.contents place' = m.workspace.disk.contents place ++ [10] →
      I.KeepsFile place' (scriptLines (m.workspace.disk.contents place')) m →
      (I.perform (Routine.runScript path') m).2.calls = script.2.calls ∧
      (I.perform (Routine.runScript path') m).2.workspace.store = script.2.workspace.store := by
  intro script typed
  have halike : Alike script.2 typed.2 := (alike_runScript hI hnewline hopen hkeeps hquiet).2
  have hstatus : script.1 = typed.1.map (List.foldl firstFailure Status.success) :=
    (alike_runScript hI hnewline hopen hkeeps hquiet).1
  refine ⟨halike.calls.symm, halike.workspace.symm, hstatus, ?_⟩
  intro path' place' hopen' hcontents hkeeps'
  have hidle : Idle typed.2
      (I.dispatchEach (bareLines (m.workspace.disk.contents place')) m).2 := by
    rw [hcontents]
    exact idle_bareLines_concat _ m
  have hquiet' : ∀ k, (I.dispatchEach
      ((bareLines (m.workspace.disk.contents place')).take k) m).2.journal.Quiet := by
    rw [hcontents]
    exact quiet_bareLines_concat hquiet
  obtain ⟨-, halike'⟩ := alike_runScript hI hnewline hopen' hkeeps' hquiet'
  constructor
  · rw [← halike'.calls, hidle.calls, halike.calls]
  · rw [← halike'.workspace, hidle.store, halike.workspace]

/-- Only as many lines matter as there are. -/
theorem keepsFile_of_le {place : Place} {lines : List String} {m : Machine σ}
    (h : ∀ k ≤ lines.length,
      (I.perform (Routine.runLines Status.success (lines.take k)) m).2.workspace.disk.stream
        place = (m.workspace.disk.contents place, none)) : I.KeepsFile place lines m := by
  intro k
  by_cases hk : k ≤ lines.length
  · exact h k hk
  · have hall := h lines.length le_rfl
    rwa [List.take_length, ← List.take_of_length_le (Nat.le_of_not_le hk)] at hall

end Interpreter

/-- A shell with given delimiters, whose handlers leave a remark. -/
def delimited (delimiters : String) : Interpreter Unit where
  shell := { rules := { delimiters := delimiters }, root := ⟨0⟩ }
  handlers _ call := .remark call.keyword (.done Status.success)

/-- A command `x`, and two scripts that call it twice.  Only the second ends with a line
feed.  Warnings go to the file `log`. -/
def scriptedStart : Machine Unit where
  workspace :=
    { store :=
        { commands :=
            [{ children := some (.owned ⟨0⟩) }, { keyword := "x", handler := some (.custom "x") }]
          registries := [{ items := [⟨1⟩] }] }
      disk :=
        { entries :=
            [(["a"], .file [120, 32, 49, 10, 120, 32, 50]),
              (["b"], .file [120, 32, 49, 10, 120, 32, 50, 10])] }
      environment := {}
      application := () }
  journal := Journal.fresh.attach ⟨0, .file ["log"]⟩

theorem eq_ok_of_toOption {α : Type} {outcome : Except Fault α} {a : α}
    (h : outcome.toOption = some a) : outcome = .ok a := by
  cases outcome with
  | ok b => exact congrArg _ (Option.some.inj h)
  | error fault => cases h

/-- With the usual delimiters both scripts call the command with a word each. -/
theorem scripted_bareLines :
    isDelimiter (delimited " \t\r\n").shell.rules.delimiters '\n' = true ∧
    ((delimited " \t\r\n").perform (Routine.runScript "/a") scriptedStart).2.calls =
      ((delimited " \t\r\n").dispatchEach ["x 1", "x 2"] scriptedStart).2.calls ∧
    ((delimited " \t\r\n").perform (Routine.runScript "/b") scriptedStart).2.calls =
      ((delimited " \t\r\n").perform (Routine.runScript "/a") scriptedStart).2.calls ∧
    ((delimited " \t\r\n").dispatchEach ["x 1", "x 2"] scriptedStart).2.calls.map Call.args =
      [["x", "2"], ["x", "1"]] := by
  have hnewline : isDelimiter (delimited " \t\r\n").shell.rules.delimiters '\n' = true := by
    decide
  have hopen : scriptedStart.workspace.disk.openForReading (Path.clean "/a") = .ok ["a"] :=
    eq_ok_of_toOption (by decide +kernel)
  have hopen' : scriptedStart.workspace.disk.openForReading (Path.clean "/b") = .ok ["b"] :=
    eq_ok_of_toOption (by decide +kernel)
  have hlines : bareLines (scriptedStart.workspace.disk.contents ["a"]) = ["x 1", "x 2"] := by
    decide +kernel
  have hkeeps : (delimited " \t\r\n").KeepsFile ["a"]
      (scriptLines (scriptedStart.workspace.disk.contents ["a"])) scriptedStart :=
    Interpreter.keepsFile_of_le (by decide +kernel)
  have hkeeps' : (delimited " \t\r\n").KeepsFile ["b"]
      (scriptLines (scriptedStart.workspace.disk.contents ["b"])) scriptedStart :=
    Interpreter.keepsFile_of_le (by decide +kernel)
  have hjournal : ∀ k, ((delimited " \t\r\n").dispatchEach
      ((bareLines (scriptedStart.workspace.disk.contents ["a"])).take k)
      scriptedStart).2.journal = scriptedStart.journal := by
    rw [hlines]
    rintro (_ | _ | k)
    · decide +kernel
    · decide +kernel
    · rw [List.take_of_length_le (by simp)]
      decide +kernel
  have hlaunches : ∀ name call, Routine.Launches Session.Oblivious
      ((delimited " \t\r\n").handlers name call) := fun _ _ => trivial
  have hquiet : scriptedStart.journal.Quiet :=
    ⟨Journal.unfiled_of_silent (by decide +kernel), Journal.unfiled_of_silent (by decide +kernel)⟩
  obtain ⟨hcalls, -, -, hfeed⟩ := Interpreter.runScript_bareLines
    (fun name call => Routine.oblivious_of_launches (hlaunches name call)) hnewline hopen hkeeps
    (fun k => hjournal k ▸ hquiet)
  rw [hlines] at hcalls
  exact ⟨hnewline, hcalls, (hfeed "/b" ["b"] hopen' (by decide +kernel) hkeeps').1,
    by decide +kernel⟩

/-- If the line feed is no delimiter, it becomes a part of the last word of a line, and the
calls are others. -/
theorem scripted_calls_ne :
    ((delimited " ").perform (Routine.runScript "/a") scriptedStart).2.calls.map Call.args =
      [["x", "2"], ["x", "1\n"]] ∧
    ((delimited " ").dispatchEach
        (bareLines (scriptedStart.workspace.disk.contents ["a"])) scriptedStart).2.calls.map
      Call.args = [["x", "2"], ["x", "1"]] ∧
    ((delimited " ").perform (Routine.runScript "/b") scriptedStart).2.calls.map Call.args =
      [["x", "2\n"], ["x", "1\n"]] := by
  decide +kernel

end CommandShell
