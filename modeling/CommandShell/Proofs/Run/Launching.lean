import CommandShell.Launch
import CommandShell.Proofs.Journal.Destinations
import CommandShell.Proofs.Settings.Loading

/-!
# Launching with settings that cannot be used

Before the settings are loaded the log is set up anew, for the screen alone; so the files are
those that were there when the program was started.  If loading is given up, the program ends
with an exit code of its own.  A cause that loading does not expect is not expected by the
program either.
-/

namespace CommandShell

variable {σ : Type}

/-! ## The log -/

namespace Journal

theorem file_setScreen (j : Journal) (env : Environment) (enabled : Bool) :
    (j.setScreen env enabled).file = j.file := by
  unfold setScreen
  split <;> rfl

/-- The log is kept on the screen alone, if at all: its destinations are set up as they should be,
and there is no log file. -/
structure OnScreen (j : Journal) : Prop where
  wired : j.Wired
  file : j.file = none

theorem Wired.onScreen_restart {j : Journal} (h : j.Wired) (disk : Disk) (env : Environment)
    (debug : Bool) : (j.restart disk env "" debug).2.1.OnScreen :=
  ⟨h.restart disk env "" debug, file_setScreen _ _ _⟩

namespace OnScreen

variable {j : Journal}

theorem obtain (h : j.OnScreen) (name : String) (level : Option Int) :
    (j.obtain name level).value.OnScreen :=
  ⟨h.wired.obtain name level, h.file⟩

theorem setLevel (h : j.OnScreen) (level : Int) : (j.setLevel level).OnScreen :=
  ⟨h.wired.setLevel level, h.file⟩

/-- Without a log file, notes change no file. -/
theorem disk_tellAll {m : Machine σ} (h : m.journal.OnScreen) (notes : List Note) :
    (m.tellAll notes).workspace.disk = m.workspace.disk := by
  have hnote : ∀ (m : Machine σ) (note : Note), m.journal.OnScreen →
      (m.tell note).workspace.disk = m.workspace.disk := by
    intro m note h
    cases hlogger : m.journal.find? note.channel with
    | none => simp [Machine.tell, deliveries, hlogger]
    | some logger =>
      cases hpasses : m.journal.passes logger note.level with
      | false => simp [Machine.tell, deliveries, hlogger, hpasses]
      | true =>
        rw [h.wired.disk_tell hlogger hpasses, h.file]
        rfl
  induction notes generalizing m with
  | nil => rfl
  | cons note rest ih => exact (ih (m.journal_tell note ▸ h)).trans (hnote m note h)

end OnScreen

end Journal

namespace Machine

variable {m : Machine σ}

theorem onScreen_obtain (h : m.journal.OnScreen) (name : String) (level : Option Int) :
    (m.changeLog (.obtain name level)).2.journal.OnScreen := by
  rw [changeLog, journal_tellAll]
  exact h.obtain name level

/-- A logger that is asked for changes no file, unless there is a log file. -/
theorem workspace_obtain (h : m.journal.OnScreen) (name : String) (level : Option Int) :
    (m.changeLog (.obtain name level)).2.workspace = m.workspace := by
  let m₁ : Machine σ := { m with journal := (m.journal.obtain name level).value }
  have hscreen : m₁.journal.OnScreen := h.obtain name level
  have hdisk : (m.changeLog (.obtain name level)).2.workspace.disk = m.workspace.disk :=
    hscreen.disk_tellAll _
  rw [(logsOnly_changeLog m (.obtain name level)).workspace, hdisk]

/-- The machine when the log has been set up for a launch. -/
def setUp (debug : Bool) (m : Machine σ) : Machine σ :=
  ((m.changeLog (.restart "" debug)).2.changeLog (.obtain Channel.program none)).2

theorem onScreen_setUp (h : m.journal.Wired) (debug : Bool) : (m.setUp debug).journal.OnScreen :=
  onScreen_obtain (h.onScreen_restart m.workspace.disk m.workspace.environment debug) _ _

/-- Setting up the log changes no file. -/
theorem workspace_setUp (h : m.journal.Wired) (debug : Bool) :
    (m.setUp debug).workspace = m.workspace :=
  workspace_obtain (h.onScreen_restart m.workspace.disk m.workspace.environment debug) _ _

end Machine

/-! ## The program -/

namespace Session

variable {α β : Type} {x : Session σ α} {f : α → Session σ β} {m m' : Machine σ}

/-- If what comes first answers or fails, and an answer is only passed on, so does the whole. -/
theorem bind_of_ite {p : Prop} [Decidable p] {a : α} {b : β} {fault : Fault}
    (h : x m = (if p then .ok a else .error fault, m')) (hf : f a m' = (.ok b, m')) :
    bind x f m = (if p then .ok b else .error fault, m') := by
  rw [bind, h]
  split_ifs
  · exact hf
  · rfl

end Session

namespace Launch

variable {m : Machine σ} {arguments : Arguments} {words : List String} {fault : Fault}

/-- The log is set up and the settings are loaded; a failure of that is the end. -/
theorem prepare_of_error (hwired : m.journal.Wired)
    (h : (Settings.load Channel.program m.workspace.disk m.workspace.environment
      arguments.config).value = .error fault) :
    ∃ m', prepare arguments m = (if fault.isAbort then .ok none else .error fault, m') := by
  let m₁ := m.setUp arguments.debug
  have hworkspace : m₁.workspace = m.workspace := Machine.workspace_setUp hwired arguments.debug
  obtain ⟨m₂, hload⟩ : ∃ m₂, loadSettings arguments.config m₁ =
      (if fault.isAbort then .ok none else .error fault, m₂) := by
    rw [← hworkspace] at h
    rw [loadSettings, h]
    dsimp only
    split_ifs <;> exact ⟨_, rfl⟩
  refine ⟨m₂, ?_⟩
  change Session.bind (loadSettings arguments.config) _ m₁ = _
  exact Session.bind_of_ite hload rfl

/-- Arguments that are right and do not ask for help are acted upon. -/
theorem start_eq_proceed (hhelp : (Arguments.parse words).help = false)
    (herror : (Arguments.parse words).error = "") :
    start words m = proceed (Arguments.parse words) m := by
  rw [start, hhelp, herror]
  rfl

/-- **A launch whose settings cannot be loaded.**  If loading was given up, it ends with an exit
code for that; any other cause ends it as it is. -/
theorem run_of_error (hwired : m.journal.Wired) (hhelp : (Arguments.parse words).help = false)
    (herror : (Arguments.parse words).error = "")
    (h : (Settings.load Channel.program m.workspace.disk m.workspace.environment
      (Arguments.parse words).config).value = .error fault) (inputs : List Input) :
    (run words inputs m).1 =
      if fault.isAbort then .ok ⟨.configError, none⟩ else .error fault := by
  obtain ⟨m', hprepare⟩ := prepare_of_error hwired h
  have hproceed : proceed (Arguments.parse words) m =
      (if fault.isAbort then .ok (.inl .configError) else .error fault, m') :=
    Session.bind_of_ite hprepare rfl
  rw [run, runOn, Session.bind_of_ite ((start_eq_proceed hhelp herror).trans hproceed) rfl]

/-- **How loading ends, and the program with it.**  Loading answers with settings, or it is given
up after a critical note, or it ends with one of the causes that escape it; and each of these
does.  If it is given up, the program ends with the exit code for settings that cannot be used;
if a cause escapes, the program ends with this cause.

It is assumed that the nesting of a document is never too deep for its reader: `Document.read` has
no bound on it. -/
theorem load_outcome (channel : String) (disk : Disk) (env : Environment) (path : String) :
    ((∃ loaded, (Settings.load channel disk env path).value = .ok loaded) ∨
      ((Settings.load channel disk env path).value = .error (.abort "") ∧
        ∃ note ∈ (Settings.load channel disk env path).notes,
          note.channel = channel ∧ note.level = Level.critical) ∨
      ∃ fault, (Settings.load channel disk env path).value = .error fault ∧
        Settings.Escapes disk env path fault) ∧
    (∀ fault, Settings.Escapes disk env path fault →
      fault.isAbort = false ∧ (Settings.load channel disk env path).value = .error fault) ∧
    ∀ {σ : Type} (m : Machine σ) (words : List String) (inputs : List Input),
      m.journal.Reachable → m.workspace.disk = disk → m.workspace.environment = env →
      (Arguments.parse words).config = path → (Arguments.parse words).help = false →
      (Arguments.parse words).error = "" →
      ((Settings.load Channel.program disk env path).value = .error (.abort "") →
        (run words inputs m).1 = .ok ⟨.configError, none⟩) ∧
      ∀ fault, Settings.Escapes disk env path fault → (run words inputs m).1 = .error fault := by
  refine ⟨?_, fun fault h => ⟨h.isAbort, h.value_load channel⟩, ?_⟩
  · cases hvalue : (Settings.load channel disk env path).value with
    | ok loaded => exact .inl ⟨loaded, rfl⟩
    | error fault =>
      refine .inr ?_
      cases habort : fault.isAbort with
      | true =>
        obtain ⟨rfl, hnote⟩ := Settings.explained_load channel disk env path fault hvalue habort
        exact .inl ⟨rfl, hnote⟩
      | false => exact .inr ⟨fault, rfl, Settings.escapes_of_load habort hvalue⟩
  · rintro σ m words inputs hjournal rfl rfl rfl hhelp herror
    refine ⟨fun h => ?_, fun fault h => ?_⟩
    · rw [run_of_error hjournal.wired hhelp herror h inputs]
      rfl
    · rw [run_of_error hjournal.wired hhelp herror (h.value_load _) inputs, h.isAbort]
      rfl

/-- A machine on which the default settings file holds the given octets; the working directory is
that of the file. -/
def holding (octets : List UInt8) : Machine Unit where
  workspace :=
    { store := {}
      disk :=
        { cwd := ["root", ".config", "cmdnest"]
          entries := [(["root", ".config", "cmdnest", "config.toml"], .file octets)] }
      environment := {}
      application := () }
  journal := .fresh

theorem read_holding (octets : List UInt8) :
    (holding octets).workspace.disk.read ({} : Environment).locations.settingsFile = .ok octets :=
  rfl

/-- A settings file that holds the letter `x` alone. -/
theorem run_malformed :
    (Settings.load Channel.program (holding [120]).workspace.disk {} "").value =
        .error (.abort "") ∧
      (∃ note ∈ (Settings.load Channel.program (holding [120]).workspace.disk {} "").notes,
        note.channel = Channel.program ∧ note.level = Level.critical) ∧
      (run ["--batch"] [] (holding [120])).1 = .ok ⟨.configError, none⟩ := by
  have htext : Text.decodeStrict? [120] = some ['x'] := by decide +kernel
  have hread : Document.read ['x'] = .error .malformed := rfl
  have hvalue : (Settings.load Channel.program (holding [120]).workspace.disk {} "").value =
      .error (.abort "") := by
    rw [Settings.value_load_of_exists rfl (Disk.exists?_of_read (read_holding _)), read_holding]
    dsimp only [bind, Except.bind]
    rw [Settings.ofOctets, htext]
    dsimp only
    rw [hread]
    rfl
  obtain ⟨houtcome, hescapes, hrun⟩ :=
    load_outcome Channel.program (holding [120]).workspace.disk {} ""
  have hlaunch := hrun (holding [120]) ["--batch"] [] Journal.reachable_fresh rfl rfl rfl rfl rfl
  refine ⟨hvalue, ?_, hlaunch.1 hvalue⟩
  obtain ⟨loaded, hok⟩ | ⟨-, hnote⟩ | ⟨fault, herror, hescape⟩ := houtcome
  · rw [hvalue] at hok
    cases hok
  · exact hnote
  · rw [hvalue] at herror
    cases herror
    cases (hescapes _ hescape).1

/-- A settings file that holds an octet which is not UTF-8: the run does not end with the exit
code for settings that cannot be used. -/
theorem run_undecodable :
    (Settings.load Channel.program (holding [255]).workspace.disk {} "").value =
        .error .undecodable ∧
      (run ["--batch"] [] (holding [255])).1 = .error .undecodable := by
  have htext : Text.decodeStrict? [255] = none := by decide +kernel
  have hescape : Settings.Escapes (holding [255]).workspace.disk {} "" .undecodable :=
    .contents rfl (read_holding [255]) (.undecodable htext)
  have hvalue := hescape.value_load Channel.program
  refine ⟨hvalue, ?_⟩
  rw [run_of_error Journal.reachable_fresh.wired rfl rfl hvalue]
  rfl

end Launch

end CommandShell
