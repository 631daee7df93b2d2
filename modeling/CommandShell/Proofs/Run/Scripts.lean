import CommandShell.Proofs.Run.Builtins
import CommandShell.Proofs.Run.Console
import CommandShell.Proofs.Run.Launching
import CommandShell.Proofs.Settings.Usable

/-!
# Launching with scripts

Once the settings are loaded and the log is set up, a launch runs its scripts one after another on
one shell.  A script that fails is the end of a batch; one that stops the shell is the end of any
launch.  A console is opened only if it is no batch and nothing stopped the shell.  Scripts that
cannot be opened have failed like others; but a path with NUL in it ends the launch itself, and so
does a console that cannot be opened.
-/

namespace CommandShell

open Machine

variable {σ : Type}

/-! ## Scripts one after another -/

namespace Launch

/-- A script that was run. -/
structure ScriptRun where
  /-- Its path. -/
  script : String
  /-- The status that it answered with. -/
  status : Int
  /-- The shell is stopped after it. -/
  stopped : Bool

/-- The state in which the next script is run: a failure was noted. -/
def reported (script : String) (status : Int) (m : Machine σ) : Machine σ :=
  (reportScript script status m).2

/-- Scripts are run one after another, each on what the one before left. -/
inductive Executed (shell : Shell) : Machine σ → List ScriptRun → Machine σ → Prop
  | nil (m : Machine σ) : Executed shell m [] m
  | cons {script : String} {status : Int} {m m₁ m' : Machine σ} {runs : List ScriptRun}
    (h : (interpreter shell).perform (Routine.runScript script) m = (.ok status, m₁))
    (hrest : Executed shell (reported script status m₁) runs m') :
    Executed shell m (⟨script, status, m₁.workspace.stopped⟩ :: runs) m'

/-- Of the scripts, those were run in order up to the first that is the end, this one included;
all of them, if none is.  So none of them was the end but the last one. -/
structure UpTo (ends : ScriptRun → Prop) (scripts : List String) (runs : List ScriptRun) :
    Prop where
  inOrder : runs.map ScriptRun.script <+: scripts
  before : ∀ r ∈ runs.dropLast, ¬ ends r
  last : runs.map ScriptRun.script = scripts ∨ ∃ r, runs.getLast? = some r ∧ ends r

namespace UpTo

variable {ends : ScriptRun → Prop} {scripts : List String} {runs : List ScriptRun} {r : ScriptRun}

theorem nil : UpTo ends [] [] :=
  ⟨List.nil_prefix, by simp, .inl rfl⟩

theorem single (h : ends r) : UpTo ends (r.script :: scripts) [r] :=
  ⟨by simp, by simp, .inr ⟨r, rfl, h⟩⟩

theorem cons (h : ¬ ends r) (hrest : UpTo ends scripts runs) :
    UpTo ends (r.script :: scripts) (r :: runs) where
  inOrder := List.cons_prefix_cons.2 ⟨rfl, hrest.inOrder⟩
  before := by
    cases runs with
    | nil => simp
    | cons next rest => exact List.forall_mem_cons.2 ⟨h, hrest.before⟩
  last := by
    obtain hall | ⟨last, hlast, hends⟩ := hrest.last
    · exact .inl (congrArg (r.script :: ·) hall)
    · refine .inr ⟨last, ?_, hends⟩
      rw [List.getLast?_cons, hlast]
      rfl

theorem congr {ends' : ScriptRun → Prop} (h : UpTo ends scripts runs)
    (hends : ∀ r, ends r ↔ ends' r) : UpTo ends' scripts runs := by
  obtain rfl : ends = ends' := funext fun r => propext (hends r)
  exact h

end UpTo

/-- The script is the end of the launch. -/
def ScriptRun.Ends (batch : Bool) (r : ScriptRun) : Prop :=
  r.stopped = true ∨ batch = true ∧ r.status < 0

instance (batch : Bool) (r : ScriptRun) : Decidable (r.Ends batch) :=
  inferInstanceAs (Decidable (r.stopped = true ∨ batch = true ∧ r.status < 0))

theorem ScriptRun.ends_true (r : ScriptRun) : r.Ends true ↔ r.status < 0 ∨ r.stopped = true := by
  simp [Ends, or_comm]

theorem ScriptRun.ends_false (r : ScriptRun) : r.Ends false ↔ r.stopped = true := by
  simp [Ends]

/-- How a launch ends with its scripts, if it does. -/
def verdict (batch : Bool) (scripts : List String) (runs : List ScriptRun) :
    Except Fault (Option ExitCode) :=
  if ∃ r ∈ runs, r.Ends batch then
    .ok (some (if batch = true ∧ ∃ r ∈ runs, r.status < 0 then .scriptError else .success))
  else if ∀ script ∈ scripts, Disk.admissible script = true then .ok none
  else .error .nulInPath

section

variable {batch : Bool} {scripts : List String} {runs : List ScriptRun} {r : ScriptRun}

theorem verdict_single (h : r.Ends batch) :
    verdict batch scripts [r] =
      .ok (some (if batch = true ∧ r.status < 0 then .scriptError else .success)) := by
  simp [verdict, h]

/-- A script that is not the end does not matter to it. -/
theorem verdict_cons (h : ¬ r.Ends batch) (hscript : Disk.admissible r.script = true) :
    verdict batch (r.script :: scripts) (r :: runs) = verdict batch scripts runs := by
  have hfails : batch = true → ¬ r.status < 0 := fun hbatch hstatus => h (.inr ⟨hbatch, hstatus⟩)
  cases batch with
  | false => simp [verdict, h, hscript]
  | true => simp [verdict, h, hscript, hfails]

end

theorem stopped_reported (script : String) (status : Int) (m : Machine σ) :
    (reported script status m).workspace.stopped = m.workspace.stopped := by
  rw [reported, reportScript]
  split_ifs
  · exact (logsOnly_tell m _).stopped
  · rfl

/-- What is done after a script. -/
theorem runScripts_of_ok {shell : Shell} {batch : Bool} {script : String} {status : Int}
    {m m₁ : Machine σ}
    (h : (interpreter shell).perform (Routine.runScript script) m = (.ok status, m₁))
    (rest : List String) :
    runScripts shell batch (script :: rest) m =
      if status < 0 ∧ batch then (.ok (some .scriptError), reported script status m₁)
      else if m₁.workspace.stopped then (.ok (some .success), reported script status m₁)
      else runScripts shell batch rest (reported script status m₁) := by
  have hreport : reportScript script status m₁ = (.ok (), reported script status m₁) := by
    rw [reported, reportScript]
    split_ifs <;> rfl
  rw [runScripts, Session.bind, h]
  dsimp only
  rw [Session.bind, hreport, ← stopped_reported script status m₁]

theorem runScripts_of_nul {shell : Shell} {batch : Bool} {script : String}
    (h : Disk.admissible script = false) (rest : List String) (m : Machine σ) :
    runScripts shell batch (script :: rest) m = (.error .nulInPath, m) := by
  rw [runScripts, Session.bind, Interpreter.runScript_of_nul h m]

/-- **The scripts of a launch.** -/
theorem runScripts_eq {shell : Shell} (hanswers : (interpreter shell : Interpreter σ).Answers)
    (batch : Bool) (scripts : List String) (m : Machine σ) :
    ∃ runs m', Executed shell m runs m' ∧
      UpTo (ScriptRun.Ends batch) (scripts.takeWhile Disk.admissible) runs ∧
      runScripts shell batch scripts m = (verdict batch scripts runs, m') := by
  induction scripts generalizing m with
  | nil => exact ⟨[], m, .nil m, .nil, rfl⟩
  | cons script rest ih =>
    cases hscript : Disk.admissible script with
    | false =>
      refine ⟨[], m, .nil m, ?_, ?_⟩
      · rw [List.takeWhile_cons, hscript]
        exact .nil
      · rw [runScripts_of_nul hscript]
        simp [verdict, hscript]
    | true =>
      obtain ⟨status, m₁, hresult⟩ := hanswers.runScript hscript m
      rw [List.takeWhile_cons, hscript, if_pos rfl, runScripts_of_ok hresult]
      let r : ScriptRun := ⟨script, status, m₁.workspace.stopped⟩
      by_cases hends : r.Ends batch
      · refine ⟨[r], _, .cons hresult (.nil _), .single hends, ?_⟩
        rw [verdict_single hends]
        by_cases hfails : status < 0 ∧ batch = true
        · rw [if_pos hfails, if_pos hfails.symm]
        · have hstopped : m₁.workspace.stopped = true :=
            hends.resolve_right fun h => hfails h.symm
          rw [if_neg hfails, if_pos hstopped, if_neg fun h => hfails h.symm]
      · obtain ⟨runs, m', hexecuted, hupTo, hrest⟩ := ih (reported script status m₁)
        refine ⟨r :: runs, m', .cons hresult hexecuted, .cons hends hupTo, ?_⟩
        rw [if_neg fun h => hends (.inr h.symm), if_neg fun h => hends (.inl h), hrest,
          verdict_cons hends hscript]

/-! ## Before the scripts -/

/-- The log file that the settings tell, if they tell one, can be opened. -/
def Loggable (disk : Disk) (settings : Settings) : Prop :=
  settings.text "log_file" = "" ∨ ∃ opened,
    disk.openForAppend (Path.absolute disk.cwdPath (settings.text "log_file")) = .ok opened

section

variable {settings : Settings} {m : Machine σ}

theorem applyLevel_eq (debug : Bool) (settings : Settings) (m : Machine σ) :
    ∃ m', applyLevel debug settings m = (.ok (), m') ∧ m'.workspace = m.workspace ∧
      (m.journal.OnScreen → m'.journal.OnScreen) := by
  rw [applyLevel]
  cases Level.parse? (settings.text "log_level") with
  | none => exact ⟨m, rfl, rfl, id⟩
  | some level =>
    cases debug with
    | true => exact ⟨m, rfl, rfl, id⟩
    | false => exact ⟨_, rfl, rfl, fun h => h.setLevel level⟩

theorem applyFile_eq (h : Loggable m.workspace.disk settings) :
    ∃ m', applyFile settings m = (.ok true, m') ∧ (settings.text "log_file" = "" → m' = m) := by
  by_cases hempty : settings.text "log_file" = ""
  · refine ⟨m, ?_, fun _ => rfl⟩
    rw [applyFile, hempty]
    rfl
  · obtain ⟨opened, hopened⟩ := h.resolve_left hempty
    have hpath : ¬ (settings.text "log_file").isEmpty = true := mt String.isEmpty_iff.1 hempty
    rw [applyFile, if_neg hpath, Machine.changeLog, Journal.setFile, if_neg hpath, hopened]
    exact ⟨_, rfl, fun h => absurd h hempty⟩

/-- A new tree, before the built-in commands are registered. -/
def bare (m : Machine σ) : Machine σ :=
  (freshTree (m.changeLog (.obtain Channel.interpreter none)).2).2

/-- What is noted while the built-in commands are registered. -/
def plantingNotes : List Note := (registerBuiltins ⟨0⟩ Store.bare).notes

/-- A new tree with the built-in commands. -/
def planted (m : Machine σ) : Machine σ :=
  let m' := (bare m).tellAll plantingNotes
  { m' with workspace := { m'.workspace with store := Store.fresh } }

theorem makeShell_eq {shell : Shell}
    (h : Shell.ofSettings Channel.program settings ⟨0⟩ = pure (.ok shell)) (m : Machine σ) :
    makeShell settings m = (.ok shell, planted m) := by
  have hbare : (bare m).workspace.store = Store.bare := rfl
  rw [makeShell, Session.bind]
  change Session.bind (noted (Shell.ofSettings Channel.program settings ⟨0⟩)) _ (bare m) = _
  rw [h, Session.bind, noted, Noted.value_pure, Noted.notes_pure, Machine.tellAll, List.foldl_nil]
  dsimp only
  rw [hbare, List.length_nil, value_registerBuiltins rfl, if_pos rfl]
  rfl

theorem stopped_planted (m : Machine σ) : (planted m).workspace.stopped = false :=
  (logsOnly_tellAll (bare m) plantingNotes).stopped

theorem disk_planted (h : m.journal.OnScreen) :
    (planted m).workspace.disk = m.workspace.disk := by
  have hbare : (bare m).journal.OnScreen := onScreen_obtain h Channel.interpreter none
  have hdisk : (planted m).workspace.disk = (bare m).workspace.disk :=
    hbare.disk_tellAll plantingNotes
  rw [hdisk, ← workspace_obtain h Channel.interpreter none]
  rfl

end

/-- Where the settings can be loaded and the log file can be opened, a launch comes to its scripts,
with a shell that has the built-in commands and is not stopped. -/
theorem prepare_of_ok {arguments : Arguments} {m : Machine σ} {loaded : Settings.Loaded}
    (hwired : m.journal.Wired)
    (hload : (Settings.load Channel.program m.workspace.disk m.workspace.environment
      arguments.config).value = .ok loaded)
    (hlog : Loggable m.workspace.disk loaded.settings) :
    ∃ ready m', prepare arguments m = (.ok (some ready), m') ∧ ready.settings = loaded.settings ∧
      m'.workspace.stopped = false ∧ (interpreter ready.shell).Fresh m' ∧
      (loaded.settings.text "log_file" = "" → m'.workspace.disk = m.workspace.disk) := by
  have hpassing := Settings.passing_load hload
  obtain ⟨depth, -, hdepth⟩ := hpassing.integer?_eq "max_depth" rfl rfl rfl
  obtain ⟨words, -, hwords⟩ := hpassing.integer?_eq "max_args" rfl rfl rfl
  have hshell := hpassing.ofSettings_eq hdepth hwords Channel.program ⟨0⟩
  let m₁ := m.setUp arguments.debug
  have hworkspace : m₁.workspace = m.workspace := workspace_setUp hwired arguments.debug
  have hscreen : m₁.journal.OnScreen := onScreen_setUp hwired arguments.debug
  let notes := (Settings.load Channel.program m₁.workspace.disk m₁.workspace.environment
    arguments.config).notes
  have hsettings : loadSettings arguments.config m₁ =
      (.ok (some loaded.settings), m₁.tellAll notes) := by
    rw [← hworkspace] at hload
    rw [loadSettings, hload]
  have hdisk : (m₁.tellAll notes).workspace.disk = m.workspace.disk :=
    (hscreen.disk_tellAll notes).trans (congrArg Workspace.disk hworkspace)
  obtain ⟨m₂, hlevel, hworkspace₂, hscreen₂⟩ :=
    applyLevel_eq arguments.debug loaded.settings (m₁.tellAll notes)
  rw [← hdisk, ← hworkspace₂] at hlog
  obtain ⟨m₃, hfile, hsame⟩ := applyFile_eq hlog
  have hmake := makeShell_eq hshell m₃
  refine ⟨⟨_, loaded.settings⟩, planted m₃, ?_, rfl, stopped_planted m₃,
    Interpreter.fresh_makeShell hmake, fun hempty => ?_⟩
  · change Session.bind (loadSettings arguments.config) _ m₁ = _
    rw [Session.bind, hsettings]
    dsimp only
    rw [Session.bind, hlevel]
    dsimp only
    rw [Session.bind, hfile]
    dsimp only
    rw [if_pos rfl, Session.bind, hmake]
    rfl
  · have hnoted : (m₁.tellAll notes).journal.OnScreen := (m₁.journal_tellAll notes).symm ▸ hscreen
    rw [hsame hempty, disk_planted (hscreen₂ hnoted), hworkspace₂, hdisk]

/-! ## The program -/

theorem answers_interpreter (shell : Shell) : (interpreter shell : Interpreter σ).Answers :=
  Interpreter.answers_of_composed (fun _ _ => Routine.composed_done _)
    (Interpreter.leavesWord_of_keepsWords fun _ _ => Routine.closed_keepsWords.done _)

/-- The path at which a launch keeps the history of its console. -/
def Ready.historyFile (ready : Ready) : String :=
  ready.settings.text "history_file"

/-- The launch fails with a cause that keeps its console from being opened.  If there is none, it
enters the loop, which answers whatever is typed. -/
def Enters (ready : Ready) (inputs : List Input) (m : Machine σ)
    (result : Except Fault LaunchReport × Machine σ) : Prop :=
  match consoleFault? m.workspace.environment ready.historyFile with
  | some fault => ∃ m', result = (.error fault, m')
  | none =>
    ∃ m₁ report m', (interpreter ready.shell).perform (ownConsole ready.historyFile) m =
        (.ok (), m₁) ∧
      (interpreter ready.shell).perform (Routine.loop inputs) m₁ = (.ok report, m') ∧
      result = (.ok ⟨.success,
        some ⟨ready.historyFile, List.replicate report.reads ready.shell.prompt⟩⟩, m')

theorem enters_converse (ready : Ready) (inputs : List Input) (m : Machine σ) :
    Enters ready inputs m (converse ownConsole ready inputs m) := by
  have hopen := perform_ownConsole (interpreter ready.shell) ready.historyFile m
  rw [Enters, converse, Session.bind]
  cases hfault : consoleFault? m.workspace.environment ready.historyFile with
  | some fault =>
    rw [hfault] at hopen
    obtain ⟨m', hopen⟩ := hopen
    rw [← Ready.historyFile, hopen]
    exact ⟨m', rfl⟩
  | none =>
    rw [hfault] at hopen
    obtain ⟨m₁, hopen⟩ := hopen
    obtain ⟨report, m', hloop⟩ := (answers_interpreter ready.shell).loop inputs m₁
    refine ⟨m₁, report, m', hopen, hloop, ?_⟩
    rw [← Ready.historyFile, hopen]
    dsimp only
    rw [Session.bind, hloop]
    rfl

section

variable {words : List String} {ready : Ready} {m m₀ m' : Machine σ} {arguments : Arguments}

/-- What a launch does once its scripts are run. -/
def conclude (arguments : Arguments) (ready : Ready) (inputs : List Input) :
    Except Fault (Option ExitCode) → Session σ LaunchReport
  | .ok (some exit) => Session.pure ⟨exit, none⟩
  | .ok none =>
    if arguments.batch then Session.pure ⟨.success, none⟩ else converse ownConsole ready inputs
  | .error fault => Session.raise fault

theorem run_eq_conclude (hwords : Arguments.parse words = arguments)
    (hhelp : arguments.help = false) (herror : arguments.error = "")
    (hprepare : prepare arguments m = (.ok (some ready), m₀))
    {outcome : Except Fault (Option ExitCode)}
    (hscripts : runScripts ready.shell arguments.batch arguments.scripts m₀ = (outcome, m'))
    (inputs : List Input) : run words inputs m = conclude arguments ready inputs outcome m' := by
  subst hwords
  rw [run, runOn, Session.bind, start_eq_proceed hhelp herror, proceed, Session.bind, hprepare]
  dsimp only
  rw [Session.bind, hscripts]
  cases outcome with
  | error fault => rfl
  | ok exit =>
    cases exit with
    | some exit => rfl
    | none =>
      dsimp only
      rw [conclude]
      split_ifs <;> rfl

theorem conclude_batch (hbatch : arguments.batch = true) (runs : List ScriptRun)
    (inputs : List Input) :
    conclude arguments ready inputs (verdict true arguments.scripts runs) m =
      (if (∃ r ∈ runs, r.status < 0 ∨ r.stopped = true) ∨
          ∀ script ∈ arguments.scripts, Disk.admissible script = true then
        .ok ⟨if ∃ r ∈ runs, r.status < 0 then .scriptError else .success, none⟩
      else .error .nulInPath, m) := by
  simp only [verdict, ScriptRun.ends_true, true_and]
  by_cases hends : ∃ r ∈ runs, r.status < 0 ∨ r.stopped = true
  · rw [if_pos hends, if_pos (Or.inl hends)]
    rfl
  · have hfails : ¬ ∃ r ∈ runs, r.status < 0 := by
      rintro ⟨r, hr, h⟩
      exact hends ⟨r, hr, .inl h⟩
    rw [if_neg hends, if_neg hfails]
    by_cases hpaths : ∀ script ∈ arguments.scripts, Disk.admissible script = true
    · rw [if_pos hpaths, if_pos (Or.inr hpaths), conclude, if_pos hbatch]
      rfl
    · rw [if_neg hpaths, if_neg (not_or.2 ⟨hends, hpaths⟩)]
      rfl

end

/-- A machine without files. -/
def blank : Machine Unit where
  workspace := { store := {}, disk := {}, environment := {}, application := () }
  journal := .fresh

/-- The settings where there is no settings file. -/
def unset : Settings.Loaded := ⟨.ofTable [] (Settings.schemaIn {}), []⟩

theorem load_blank :
    (Settings.load Channel.program blank.workspace.disk blank.workspace.environment "").value =
      .ok unset := by
  have hholds : Settings.Holds blank.workspace.disk blank.workspace.environment "" [] :=
    .absent rfl rfl
  rw [hholds.value_load, Settings.value_ofSection]
  rfl

theorem loggable_blank : Loggable blank.workspace.disk unset.settings := .inl rfl

theorem prepare_blank (arguments : Arguments) (h : arguments.config = "") :
    ∃ ready m', prepare arguments blank = (.ok (some ready), m') ∧
      m'.workspace.disk = blank.workspace.disk := by
  have hload := load_blank
  rw [← h] at hload
  obtain ⟨ready, m', hprepare, -, -, -, hdisk⟩ :=
    prepare_of_ok Journal.reachable_fresh.wired hload loggable_blank
  exact ⟨ready, m', hprepare, hdisk rfl⟩

end Launch

end CommandShell
