import CommandShell.Proofs.Run.Trace
import Mathlib.Data.List.Nodup
import Mathlib.Data.List.Perm.Basic

/-!
# Where the log goes

Each logger has a list of destinations of its own, and the journal keeps one list for all of
them, besides the destination on the screen and the one in a file.  Requests change these in
turn, and one that fails stops halfway.  Still the lists agree whenever a request has ended:
every logger writes to the screen, if it is switched on, to the log file, if there is one,
and to nothing else.
-/

namespace CommandShell

variable {σ : Type}

/-! ## Notes leave the journal as it is -/

namespace Machine

@[simp] theorem journal_deliver (m : Machine σ) (delivery : Journal.Delivery) :
    (m.deliver delivery).journal = m.journal := by
  cases delivery <;> rfl

@[simp] theorem journal_tell (m : Machine σ) (note : Note) :
    (m.tell note).journal = m.journal := by
  unfold tell
  generalize m.journal.deliveries note = deliveries
  induction deliveries generalizing m with
  | nil => rfl
  | cons delivery rest ih => simp [ih]

@[simp] theorem journal_tellAll (m : Machine σ) (notes : List Note) :
    (m.tellAll notes).journal = m.journal := by
  unfold tellAll
  induction notes generalizing m with
  | nil => rfl
  | cons note rest ih => simp [ih]

end Machine

namespace Journal

/-- The states of the log of a process.  It starts with nothing set up, in debug mode or not;
then requests are made, whatever happens to the files and the environment between them. -/
inductive Reachable : Journal → Prop
  | start (debug : Bool) : Reachable { debug := debug }
  | change {σ : Type} {m : Machine σ} (h : Reachable m.journal) (request : Change) :
    Reachable (m.changeLog request).2.journal

/-- All loggers have the destinations of the journal, and these are the one on the screen and
the one in a file, as far as there are such.  The next one will be told from all of them. -/
structure Wired (j : Journal) : Prop where
  shared : ∀ logger ∈ j.loggers, logger.sinks = j.sinks
  active : j.sinks.Perm (j.screen.toList ++ j.file.toList)
  screen : ∀ sink, j.screen = some sink → ∃ debug colour, sink.destination = .screen debug colour
  file : ∀ sink, j.file = some sink → ∃ place, sink.destination = .file place
  recent : ∀ sink ∈ j.sinks, sink.serial < j.nextSerial

namespace Wired

variable {j : Journal}

theorem mem_sinks_iff (h : Wired j) {sink : Sink} :
    sink ∈ j.sinks ↔ j.screen = some sink ∨ j.file = some sink := by
  rw [h.active.mem_iff]
  simp

theorem nodup (h : Wired j) : j.sinks.Nodup := by
  rw [h.active.nodup_iff]
  cases hscreen : j.screen with
  | none => cases j.file <;> simp
  | some first =>
    cases hfile : j.file with
    | none => simp
    | some second =>
      -- One leads to the screen and the other to a file.
      obtain ⟨debug, colour, hfirst⟩ := h.screen first hscreen
      obtain ⟨place, hsecond⟩ := h.file second hfile
      have hne : first ≠ second := by
        rintro rfl
        simp [hfirst] at hsecond
      simpa using hne

theorem not_mem_of_new (h : Wired j) {sink : Sink} (hnew : sink.serial = j.nextSerial) :
    sink ∉ j.sinks := by
  intro hmem
  have := h.recent sink hmem
  omega

end Wired

/-! ## Attaching and detaching -/

@[simp] theorem screen_detach? (j : Journal) (sink : Option Sink) :
    (j.detach? sink).screen = j.screen := by
  cases sink <;> rfl

@[simp] theorem nextSerial_detach? (j : Journal) (sink : Option Sink) :
    (j.detach? sink).nextSerial = j.nextSerial := by
  cases sink <;> rfl

theorem shared_detach {j : Journal} (h : ∀ logger ∈ j.loggers, logger.sinks = j.sinks)
    (sink : Sink) : ∀ logger ∈ (j.detach sink).loggers, logger.sinks = (j.detach sink).sinks := by
  intro logger hlogger
  obtain ⟨before, hbefore, rfl⟩ := List.mem_map.1 hlogger
  simp [Logger.detach, detach, h before hbefore]

/-- Destinations that a logger has already are not given to it again. -/
theorem foldl_attach_of_subset {sinks : List Sink} {logger : Logger}
    (h : ∀ sink ∈ sinks, sink ∈ logger.sinks) : sinks.foldl Logger.attach logger = logger := by
  induction sinks with
  | nil => rfl
  | cons sink rest ih =>
    have hfirst : logger.attach sink = logger := by simp [Logger.attach, h sink (by simp)]
    rw [List.foldl_cons, hfirst]
    exact ih fun other hother => h other (by simp [hother])

/-- Those that it has not are given to it in order. -/
theorem sinks_foldl_attach {sinks : List Sink} {logger : Logger}
    (h : (logger.sinks ++ sinks).Nodup) :
    (sinks.foldl Logger.attach logger).sinks = logger.sinks ++ sinks := by
  induction sinks generalizing logger with
  | nil => simp
  | cons sink rest ih =>
    have hnew : sink ∉ logger.sinks := fun hmem =>
      List.disjoint_of_nodup_append h hmem (by simp)
    have hfirst : (logger.attach sink).sinks = logger.sinks ++ [sink] := by
      simp [Logger.attach, hnew]
    rw [List.foldl_cons, ih (by simpa [hfirst] using h), hfirst]
    simp

namespace Wired

variable {j : Journal} {sink : Sink} {screen file : Option Sink}

/-- A new destination is set up for all loggers. -/
theorem attach (h : Wired j) (hnew : sink.serial = j.nextSerial)
    (hactive : (sink :: (j.screen.toList ++ j.file.toList)).Perm (screen.toList ++ file.toList))
    (hscreen : ∀ sink, screen = some sink → ∃ debug colour, sink.destination = .screen debug colour)
    (hfile : ∀ sink, file = some sink → ∃ place, sink.destination = .file place) :
    Wired { j.attach sink with screen := screen, file := file } where
  shared := by
    intro logger hlogger
    obtain ⟨before, hbefore, rfl⟩ := List.mem_map.1 hlogger
    simp [Logger.attach, Journal.attach, h.shared before hbefore, h.not_mem_of_new hnew]
  active :=
    (List.perm_append_singleton sink j.sinks).trans ((h.active.cons sink).trans hactive)
  screen := hscreen
  file := hfile
  recent := by
    intro old hold
    simp only [Journal.attach, List.mem_append, List.mem_singleton] at hold ⊢
    rcases hold with hold | rfl
    · have := h.recent old hold
      omega
    · omega

/-- A destination is taken away from all loggers. -/
theorem detach (h : Wired j)
    (hactive : ((j.screen.toList ++ j.file.toList).erase sink).Perm (screen.toList ++ file.toList))
    (hscreen : ∀ sink, screen = some sink → ∃ debug colour, sink.destination = .screen debug colour)
    (hfile : ∀ sink, file = some sink → ∃ place, sink.destination = .file place) :
    Wired { j.detach sink with screen := screen, file := file } where
  shared := shared_detach h.shared sink
  active := (h.active.erase sink).trans hactive
  screen := hscreen
  file := hfile
  recent := fun old hold => h.recent old (List.mem_of_mem_erase hold)

/-- Only the levels of loggers change. -/
theorem of_levels (h : Wired j) (level : Int) (all : Option Int) (debug : Bool) :
    Wired { j with level := all, debug := debug,
                   loggers := j.loggers.map (·.setLevel level) } where
  shared := by
    intro logger hlogger
    obtain ⟨before, hbefore, rfl⟩ := List.mem_map.1 hlogger
    exact h.shared before hbefore
  active := h.active
  screen := h.screen
  file := h.file
  recent := h.recent

/-! ## Requests -/

theorem setScreen (h : Wired j) (env : Environment) (enabled : Bool) :
    Wired (j.setScreen env enabled) := by
  unfold Journal.setScreen
  split
  next hscreen =>
    refine h.attach rfl ?_ ?_ h.file
    · simp [hscreen]
    · rintro sink ⟨⟩
      exact ⟨_, _, rfl⟩
  next sink hscreen =>
    refine h.detach ?_ ?_ h.file
    · simp [hscreen]
    · rintro _ ⟨⟩
  next => exact h

/-- No log is kept in a file any more. -/
theorem dropFile (h : Wired j) : Wired { j.detach? j.file with file := none } := by
  cases hfile : j.file with
  | none =>
    have hactive := h.active
    rw [hfile] at hactive
    exact ⟨h.shared, hactive, h.screen, by simp, h.recent⟩
  | some old =>
    refine h.detach ?_ h.screen (by simp)
    -- The destination on the screen is another one.
    have hnodup := h.active.nodup_iff.1 h.nodup
    rw [hfile] at hnodup ⊢
    rw [List.erase_append_right]
    · simp
    · intro hmem
      exact List.disjoint_of_nodup_append hnodup hmem (by simp)

theorem setFile (h : Wired j) {disk disk' : Disk} {path : String} {j' : Journal}
    (hset : j.setFile disk path = .ok (j', disk')) : Wired j' := by
  unfold Journal.setFile at hset
  split_ifs at hset with hpath
  · cases hset
    exact h.dropFile
  · cases hopen : disk.openForAppend (Path.absolute disk.cwdPath path) with
    | error fault => simp [hopen, bind, Except.bind] at hset
    | ok opened =>
      obtain ⟨place, disk₁⟩ := opened
      simp only [hopen, bind, Except.bind, pure, Except.pure, Except.ok.injEq, Prod.mk.injEq]
        at hset
      obtain ⟨rfl, -⟩ := hset
      refine h.dropFile.attach (by simp) ?_ h.dropFile.screen ?_
      · simpa using (List.perm_append_singleton _ j.screen.toList).symm
      · rintro sink ⟨⟩
        exact ⟨place, rfl⟩

/-- Taking all destinations away, one after the other. -/
theorem clear (h : Wired j) : Wired j.clear := by
  have hfold : ∀ (sinks : List Sink) (k : Journal), k.sinks = sinks →
      (∀ logger ∈ k.loggers, logger.sinks = k.sinks) →
      (sinks.foldl Journal.detach k).sinks = [] ∧
        ∀ logger ∈ (sinks.foldl Journal.detach k).loggers, logger.sinks = [] := by
    intro sinks
    induction sinks with
    | nil =>
      intro k hk hshared
      exact ⟨hk, fun logger hlogger => (hshared logger hlogger).trans hk⟩
    | cons sink rest ih =>
      intro k hk hshared
      exact ih (k.detach sink) (by simp [Journal.detach, hk]) (shared_detach hshared sink)
  obtain ⟨hsinks, hloggers⟩ := hfold j.sinks j rfl h.shared
  refine ⟨fun logger hlogger => ?_, ?_, by simp [Journal.clear], by simp [Journal.clear], ?_⟩
  · rw [hloggers logger hlogger]
    exact hsinks.symm
  · simp [Journal.clear, hsinks]
  · simp [Journal.clear, hsinks]

theorem setLevel (h : Wired j) (level : Int) : Wired (j.setLevel level) :=
  h.of_levels level (some level) j.debug

theorem enableDebug (h : Wired j) : Wired j.enableDebug := by
  unfold Journal.enableDebug
  split_ifs
  · exact h.of_levels Level.debug j.level true
  · exact ⟨h.shared, h.active, h.screen, h.file, h.recent⟩

theorem restart (h : Wired j) (disk : Disk) (env : Environment) (path : String) (debug : Bool) :
    Wired (j.restart disk env path debug).2.1 := by
  have hclear : Wired (if debug then j.enableDebug else j).clear := by
    split_ifs
    · exact h.enableDebug.clear
    · exact h.clear
  unfold Journal.restart
  dsimp only
  generalize (if debug then j.enableDebug else j).clear = cleared at hclear ⊢
  split_ifs
  · exact hclear.setScreen env true
  · split
    next => exact hclear
    next hset => exact (hclear.setFile hset).setScreen env true

/-- A logger that is new is given all destinations; one that is known has them. -/
theorem obtain (h : Wired j) (name : String) (level : Option Int) :
    Wired (j.obtain name level).value := by
  refine ⟨?_, h.active, h.screen, h.file, h.recent⟩
  have hnodup := h.nodup
  intro logger hlogger
  simp only [Journal.obtain] at hlogger ⊢
  split_ifs at hlogger with hknown
  · obtain ⟨before, hbefore, rfl⟩ := List.mem_map.1 hlogger
    split_ifs with hname
    · have hsinks : (before.setLevel (level.getD j.defaultLevel)).sinks = j.sinks :=
        h.shared before hbefore
      rw [foldl_attach_of_subset (by simp [hsinks]), hsinks]
    · exact h.shared before hbefore
  · rcases List.mem_append.1 hlogger with hold | hnew
    · exact h.shared logger hold
    · rw [List.mem_singleton.1 hnew, sinks_foldl_attach (by simpa [Logger.setLevel] using hnodup)]
      rfl

end Wired

theorem wired_start (debug : Bool) : Wired { debug := debug } :=
  ⟨by simp, by simp, by simp, by simp, by simp⟩

/-- The lists agree whenever a request has ended, well or badly. -/
theorem Reachable.wired {j : Journal} (h : Reachable j) : Wired j := by
  induction h with
  | start debug => exact wired_start debug
  | @change σ m _ request ih =>
    cases request with
    | keep => exact ih
    | restart path debug => exact ih.restart _ _ path debug
    | obtain name level =>
      simp only [Machine.changeLog, Machine.journal_tellAll]
      exact ih.obtain name level
    | level level => exact ih.setLevel level
    | screen enabled => exact ih.setScreen _ enabled
    | file path =>
      unfold Machine.changeLog
      dsimp only
      split
      next hset => exact ih.setFile hset
      next => exact ih

theorem Reachable.obtain {j : Journal} (h : Reachable j) (name : String) (level : Option Int) :
    Reachable (j.obtain name level).value := by
  let m : Machine Unit :=
    { workspace := { store := {}, disk := {}, environment := {}, application := () }, journal := j }
  have hchange := Reachable.change (m := m) h (.obtain name level)
  simpa [Machine.changeLog] using hchange

/-- The log of a process that has loaded the shell. -/
theorem reachable_fresh : Reachable fresh := by
  have hchannels : ∀ (names : List String) (j : Journal), Reachable j →
      Reachable (names.foldl (fun j name => (j.obtain name).value) j) := by
    intro names
    induction names with
    | nil => exact fun _ h => h
    | cons name rest ih => exact fun j h => ih _ (h.obtain name none)
  have hall := hchannels firstChannels {} (.start false)
  rwa [show firstChannels.foldl (fun j name => (j.obtain name).value) {} = fresh by
    decide +kernel] at hall

end Journal

/-! ## What becomes of a note -/

/-- The file that a destination leads to. -/
def Sink.place? (sink : Sink) : Option Place :=
  match sink.destination with
  | .screen _ _ => none
  | .file place => some place

/-- A note as a destination shows it. -/
def Sink.line (sink : Sink) (note : Note) : String :=
  match sink.destination with
  | .screen debug colour => Style.screenLine debug colour note
  | .file _ => Style.fileLine (Level.name note.level) note

namespace Journal

/-- The line, if it goes to the screen. -/
def Delivery.shown? : Delivery → Option String
  | screen line => some line
  | file _ _ => none

/-- The line with its place, if it goes to a file. -/
def Delivery.stored? : Delivery → Option (Place × String)
  | screen _ => none
  | file place line => some (place, line)

end Journal

namespace Machine

theorem screen_foldl_deliver (deliveries : List Journal.Delivery) (m : Machine σ) :
    (deliveries.foldl deliver m).screen =
      (deliveries.filterMap Journal.Delivery.shown?).foldl (· ++ ·) m.screen := by
  induction deliveries generalizing m with
  | nil => rfl
  | cons delivery rest ih =>
    cases delivery <;> simp [ih, deliver, Journal.Delivery.shown?, List.filterMap_cons]

theorem disk_foldl_deliver (deliveries : List Journal.Delivery) (m : Machine σ) :
    (deliveries.foldl deliver m).workspace.disk =
      (deliveries.filterMap Journal.Delivery.stored?).foldl
        (fun disk stored => disk.appendTo stored.1 stored.2) m.workspace.disk := by
  induction deliveries generalizing m with
  | nil => rfl
  | cons delivery rest ih =>
    cases delivery <;> simp [ih, deliver, Journal.Delivery.stored?, List.filterMap_cons]

end Machine

namespace Journal.Wired

variable {j : Journal}

/-- What is picked out of the lines for a note does not depend on the order in which the
destinations were set up, if there is at most one such line. -/
theorem filterMap_deliver {β : Type} (h : Wired j) (note : Note) (pick : Delivery → Option β)
    {picked : Option β}
    (hpicked : ((j.screen.toList ++ j.file.toList).map (deliver note)).filterMap pick =
      picked.toList) :
    (j.sinks.map (deliver note)).filterMap pick = picked.toList := by
  have hperm := (h.active.map (deliver note)).filterMap pick
  rw [hpicked] at hperm
  cases picked with
  | none => simpa using hperm
  | some line => simpa using hperm

theorem filterMap_shown (h : Wired j) (note : Note) :
    (j.sinks.map (deliver note)).filterMap Delivery.shown? =
      (j.screen.map (·.line note)).toList := by
  apply h.filterMap_deliver
  have hfile : (j.file.toList.map (deliver note)).filterMap Delivery.shown? = [] := by
    cases hfile : j.file with
    | none => rfl
    | some sink =>
      obtain ⟨place, hplace⟩ := h.file sink hfile
      simp [deliver, hplace, Delivery.shown?]
  rw [List.map_append, List.filterMap_append, hfile, List.append_nil]
  cases hscreen : j.screen with
  | none => rfl
  | some sink =>
    obtain ⟨debug, colour, hsink⟩ := h.screen sink hscreen
    simp [deliver, hsink, Delivery.shown?, Sink.line]

theorem filterMap_stored (h : Wired j) (note : Note) :
    (j.sinks.map (deliver note)).filterMap Delivery.stored? =
      (j.file.bind fun sink => sink.place?.map (·, sink.line note)).toList := by
  apply h.filterMap_deliver
  have hscreen : (j.screen.toList.map (deliver note)).filterMap Delivery.stored? = [] := by
    cases hscreen : j.screen with
    | none => rfl
    | some sink =>
      obtain ⟨debug, colour, hsink⟩ := h.screen sink hscreen
      simp [deliver, hsink, Delivery.stored?]
  rw [List.map_append, List.filterMap_append, hscreen, List.nil_append]
  cases hfile : j.file with
  | none => rfl
  | some sink =>
    obtain ⟨place, hplace⟩ := h.file sink hfile
    simp [deliver, hplace, Delivery.stored?, Sink.line, Sink.place?]

section

variable {m : Machine σ} {note : Note} {logger : Logger}

/-- A note that passes its logger goes to all destinations, if there are any. -/
theorem deliveries_eq (h : Wired j) (hlogger : j.find? note.channel = some logger)
    (hpasses : j.passes logger note.level = true) (hsinks : j.sinks ≠ []) :
    j.deliveries note = j.sinks.map (deliver note) := by
  have hshared := h.shared logger (List.mem_of_find?_eq_some hlogger)
  simp [deliveries, hlogger, hpasses, hshared, hsinks]

/-- If there are none, it goes to no file. -/
theorem filterMap_stored_of_nil (h : Wired j) (hsinks : j.sinks = []) :
    (j.deliveries note).filterMap Delivery.stored? = [] := by
  unfold deliveries
  split
  next => rfl
  next logger hlogger =>
    have hshared := h.shared logger (List.mem_of_find?_eq_some hlogger)
    rw [hshared, hsinks]
    split_ifs <;> simp_all [Delivery.stored?]

/-- The screen shows the note once, if it is switched on, and not if only a file is set up. -/
theorem screen_tell (h : Wired m.journal) (hlogger : m.journal.find? note.channel = some logger)
    (hpasses : m.journal.passes logger note.level = true) (hsinks : m.journal.sinks ≠ []) :
    (m.tell note).screen =
      m.screen ++ (m.journal.screen.elim "" fun sink => sink.line note) := by
  rw [Machine.tell, Machine.screen_foldl_deliver, h.deliveries_eq hlogger hpasses hsinks,
    h.filterMap_shown]
  cases m.journal.screen <;> simp

/-- Of all files, only the log file is written to, and once. -/
theorem disk_tell (h : Wired m.journal) (hlogger : m.journal.find? note.channel = some logger)
    (hpasses : m.journal.passes logger note.level = true) :
    (m.tell note).workspace.disk =
      match m.journal.file.bind fun sink => sink.place?.map (·, sink.line note) with
      | none => m.workspace.disk
      | some (place, line) => m.workspace.disk.appendTo place line := by
  rw [Machine.tell, Machine.disk_foldl_deliver]
  by_cases hsinks : m.journal.sinks = []
  · have hfile : m.journal.file = none := by
      rw [Option.eq_none_iff_forall_not_mem]
      intro sink hsink
      have := h.mem_sinks_iff.2 (.inr hsink)
      simp [hsinks] at this
    simp [h.filterMap_stored_of_nil hsinks, hfile]
  · rw [h.deliveries_eq hlogger hpasses hsinks, h.filterMap_stored]
    cases m.journal.file.bind fun sink => sink.place?.map (·, sink.line note) <;> rfl

end

end Journal.Wired

namespace Disk

theorem look_put_of_ne {place other : Place} (h : other ≠ place) (d : Disk) (entry : Entry) :
    (d.put place entry).look other = d.look other := by
  have hfilter : (d.entries.filter (·.1 != place)).find? (·.1 == other) =
      d.entries.find? (·.1 == other) := by
    rw [List.find?_filter]
    congr 1
    funext stored
    by_cases hstored : stored.1 = other <;> simp [hstored, h]
  simp [look, put, Ne.symm h, hfilter]

/-- Appending to a file leaves all other places as they are. -/
theorem look_appendTo_of_ne {place other : Place} (h : other ≠ place) (d : Disk) (text : String) :
    (d.appendTo place text).look other = d.look other := by
  unfold appendTo
  split
  · exact look_put_of_ne h d _
  · rfl

end Disk

/-- A note leaves every file alone but the one that is the log file now. -/
theorem Journal.Wired.look_tell_of_ne {m : Machine σ} {note : Note} {logger : Logger}
    (h : m.journal.Wired) (hlogger : m.journal.find? note.channel = some logger)
    (hpasses : m.journal.passes logger note.level = true) {place : Place}
    (hother : ∀ sink, m.journal.file = some sink → sink.destination ≠ .file place) :
    (m.tell note).workspace.disk.look place = m.workspace.disk.look place := by
  rw [h.disk_tell hlogger hpasses]
  cases hfile : m.journal.file with
  | none => rfl
  | some sink =>
    obtain ⟨current, hdestination⟩ := h.file sink hfile
    have hne : place ≠ current := by
      rintro rfl
      exact hother sink hfile hdestination
    simpa [Sink.place?, hdestination] using Disk.look_appendTo_of_ne hne _ _

/-- A log file that cannot be opened leaves everything as it is. -/
theorem Machine.changeLog_file_of_error {m : Machine σ} {path : String} {fault : Fault}
    (h : (m.changeLog (.file path)).1 = .error fault) : (m.changeLog (.file path)).2 = m := by
  unfold changeLog at h ⊢
  dsimp only at h ⊢
  split
  next hset => simp [hset] at h
  next => rfl

namespace Journal

/-- **Every note is written once to each destination**, in every state of the log that
requests lead to.  All loggers have the same destinations, each once: the one on the screen
and the one in a file, as far as they are set up.  A note that passes its logger adds one line
to the screen if it is switched on, and one line to the log file if there is one; no other
file changes, not even one that was the log file before.  A request for another log file that
fails changes nothing at all. -/
theorem reachable_destinations (m : Machine σ) (h : m.journal.Reachable) :
    (∀ logger ∈ m.journal.loggers, logger.sinks = m.journal.sinks) ∧
    m.journal.sinks.Nodup ∧
    (∀ sink, sink ∈ m.journal.sinks ↔
      m.journal.screen = some sink ∨ m.journal.file = some sink) ∧
    (∀ note logger, m.journal.find? note.channel = some logger →
      m.journal.passes logger note.level = true →
      (∀ sink, m.journal.screen = some sink → ∃ debug colour,
        sink.destination = .screen debug colour ∧
        (m.tell note).screen = m.screen ++ Style.screenLine debug colour note) ∧
      (m.journal.screen = none → m.journal.file ≠ none → (m.tell note).screen = m.screen) ∧
      (∀ sink, m.journal.file = some sink → ∃ place, sink.destination = .file place ∧
        (m.tell note).workspace.disk =
          m.workspace.disk.appendTo place (Style.fileLine (Level.name note.level) note)) ∧
      (∀ place, (∀ sink, m.journal.file = some sink → sink.destination ≠ .file place) →
        (m.tell note).workspace.disk.look place = m.workspace.disk.look place)) ∧
    (∀ path fault, (m.changeLog (.file path)).1 = .error fault →
      (m.changeLog (.file path)).2 = m) := by
  have hwired := h.wired
  refine ⟨hwired.shared, hwired.nodup, fun sink => hwired.mem_sinks_iff, ?_, ?_⟩
  · intro note logger hlogger hpasses
    have hdisk := hwired.disk_tell hlogger hpasses
    have hscreen {sink : Sink} (hsink : sink ∈ m.journal.sinks) :=
      hwired.screen_tell hlogger hpasses (List.ne_nil_of_mem hsink)
    refine ⟨?_, ?_, ?_, ?_⟩
    · intro sink hsink
      obtain ⟨debug, colour, hdestination⟩ := hwired.screen sink hsink
      refine ⟨debug, colour, hdestination, ?_⟩
      rw [hscreen (hwired.mem_sinks_iff.2 (.inl hsink)), hsink]
      simp [Sink.line, hdestination]
    · intro hnone hfile
      obtain ⟨sink, hsink⟩ := Option.ne_none_iff_exists'.1 hfile
      rw [hscreen (hwired.mem_sinks_iff.2 (.inr hsink)), hnone]
      simp
    · intro sink hsink
      obtain ⟨place, hdestination⟩ := hwired.file sink hsink
      refine ⟨place, hdestination, ?_⟩
      rw [hdisk, hsink]
      simp [Sink.place?, Sink.line, hdestination]
    · exact fun place hother => hwired.look_tell_of_ne hlogger hpasses hother
  · exact fun path fault hfault => Machine.changeLog_file_of_error hfault

/-- A process that logs to the screen and to the file `a`, and then to `b` in its place. -/
def switched : Machine Unit :=
  let loaded : Machine Unit :=
    { workspace := { store := {}, disk := {}, environment := {}, application := () }
      journal := .fresh }
  ((loaded.changeLog (.restart "/a" false)).2.changeLog (.file "/b")).2

/-- A warning goes to the new file and leaves the old one alone. -/
theorem switched_destinations :
    switched.journal.Reachable ∧
    (switched.tell ⟨Channel.words, Level.warning, "no", none⟩).screen = "no\n" ∧
    (switched.tell ⟨Channel.words, Level.warning, "no", none⟩).workspace.disk =
      switched.workspace.disk.appendTo ["b"]
        (Style.fileLine "WARNING" ⟨Channel.words, Level.warning, "no", none⟩) ∧
    (switched.tell ⟨Channel.words, Level.warning, "no", none⟩).workspace.disk.look ["a"] =
      some (.file []) := by
  have hreachable : switched.journal.Reachable := .change (.change reachable_fresh _) _
  obtain ⟨-, -, -, hnotes, -⟩ := reachable_destinations switched hreachable
  obtain ⟨hscreen, -, hfile, hother⟩ := hnotes ⟨Channel.words, Level.warning, "no", none⟩
    ⟨Channel.words, Level.warning, switched.journal.sinks⟩ (by decide +kernel) (by decide +kernel)
  obtain ⟨debug, colour, hdestination, hshown⟩ :=
    hscreen ⟨1, .screen false false⟩ (by decide +kernel)
  obtain ⟨place, hplace, hdisk⟩ := hfile ⟨2, .file ["b"]⟩ (by decide +kernel)
  cases hdestination
  cases hplace
  refine ⟨hreachable, ?_, ?_, ?_⟩
  · rw [hshown]
    decide +kernel
  · rw [hdisk]
    rfl
  · rw [hother ["a"] (by decide +kernel)]
    decide +kernel

end Journal

end CommandShell
