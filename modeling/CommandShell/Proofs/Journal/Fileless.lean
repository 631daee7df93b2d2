import CommandShell.Proofs.Journal.Destinations

/-!
# Logs without a file

As long as no destination leads to a file, what the log does is to be seen on the screen only.
Two states that differ in how the log is set up then stay like each other, whatever notes are
made.  A request to change the log cannot tell them apart either: it succeeds or fails in both,
and gives both a log file or neither.
-/

namespace CommandShell

variable {σ : Type}

namespace Journal

/-- No destination leads to a file. -/
structure Fileless (j : Journal) : Prop where
  sinks : ∀ sink ∈ j.sinks, sink.place? = none
  loggers : ∀ logger ∈ j.loggers, ∀ sink ∈ logger.sinks, sink.place? = none

instance (j : Journal) : Decidable j.Fileless :=
  decidable_of_iff ((∀ sink ∈ j.sinks, sink.place? = none) ∧
      ∀ logger ∈ j.loggers, ∀ sink ∈ logger.sinks, sink.place? = none)
    ⟨fun h => ⟨h.1, h.2⟩, fun h => ⟨h.sinks, h.loggers⟩⟩

/-! ## Attaching and detaching -/

theorem mem_sinks_attach {logger : Logger} {sink other : Sink}
    (h : other ∈ (logger.attach sink).sinks) : other ∈ logger.sinks ∨ other = sink := by
  unfold Logger.attach at h
  split_ifs at h with hmem
  · exact .inl h
  · simpa using h

theorem mem_sinks_foldl_attach {sinks : List Sink} {logger : Logger} {other : Sink}
    (h : other ∈ (sinks.foldl Logger.attach logger).sinks) :
    other ∈ logger.sinks ∨ other ∈ sinks := by
  induction sinks generalizing logger with
  | nil => exact .inl h
  | cons sink rest ih =>
    obtain hattach | hrest := ih h
    · obtain hold | rfl := mem_sinks_attach hattach
      · exact .inl hold
      · exact .inr List.mem_cons_self
    · exact .inr (List.mem_cons_of_mem _ hrest)

namespace Fileless

variable {j j' : Journal}

/-- Levels, and what else is known of destinations, do not matter. -/
theorem of_sinks (h : j.Fileless) (hsinks : j'.sinks = j.sinks)
    (hloggers : ∀ logger' ∈ j'.loggers, ∃ logger ∈ j.loggers, logger'.sinks = logger.sinks) :
    j'.Fileless where
  sinks := hsinks ▸ h.sinks
  loggers logger' hmem := by
    obtain ⟨logger, hlogger, heq⟩ := hloggers logger' hmem
    rw [heq]
    exact h.loggers logger hlogger

theorem attach (h : j.Fileless) {sink : Sink} (hsink : sink.place? = none) :
    (j.attach sink).Fileless where
  sinks other hmem := by
    obtain hold | hnew := List.mem_append.1 hmem
    · exact h.sinks other hold
    · rwa [List.mem_singleton.1 hnew]
  loggers logger' hmem other hother := by
    obtain ⟨logger, hlogger, rfl⟩ := List.mem_map.1 hmem
    obtain hold | rfl := mem_sinks_attach hother
    · exact h.loggers logger hlogger other hold
    · exact hsink

theorem detach (h : j.Fileless) (sink : Sink) : (j.detach sink).Fileless where
  sinks other hmem := h.sinks other (List.mem_of_mem_erase hmem)
  loggers logger' hmem other hother := by
    obtain ⟨logger, hlogger, rfl⟩ := List.mem_map.1 hmem
    exact h.loggers logger hlogger other (List.mem_of_mem_erase hother)

theorem dropFile (h : j.Fileless) : Fileless { j.detach? j.file with file := none } := by
  cases hfile : j.file with
  | none => exact ⟨h.sinks, h.loggers⟩
  | some sink =>
    have hdetach := h.detach sink
    exact ⟨hdetach.sinks, hdetach.loggers⟩

/-! ## Requests -/

theorem setScreen (h : j.Fileless) (env : Environment) (enabled : Bool) :
    (j.setScreen env enabled).Fileless := by
  have hscreen : ∀ screen, Fileless { j with screen := screen } :=
    fun _ => ⟨h.sinks, h.loggers⟩
  unfold Journal.setScreen
  split
  next =>
    refine (hscreen _).attach ?_
    rfl
  next sink _ => exact (hscreen none).detach sink
  next => exact h

theorem setLevel (h : j.Fileless) (level : Int) : (j.setLevel level).Fileless :=
  h.of_sinks rfl fun _ hmem => by
    obtain ⟨logger, hlogger, rfl⟩ := List.mem_map.1 hmem
    exact ⟨logger, hlogger, rfl⟩

theorem enableDebug (h : j.Fileless) : j.enableDebug.Fileless := by
  refine h.of_sinks rfl fun logger' hmem => ?_
  unfold Journal.enableDebug at hmem
  dsimp only at hmem
  split_ifs at hmem
  · obtain ⟨logger, hlogger, rfl⟩ := List.mem_map.1 hmem
    exact ⟨logger, hlogger, rfl⟩
  · exact ⟨logger', hmem, rfl⟩

theorem clear (h : j.Fileless) : j.clear.Fileless := by
  have hfold : ∀ (sinks : List Sink) (k : Journal), k.Fileless →
      (sinks.foldl Journal.detach k).Fileless := by
    intro sinks
    induction sinks with
    | nil => exact fun _ hk => hk
    | cons sink rest ih => exact fun k hk => ih _ (hk.detach sink)
  have hcleared := hfold j.sinks j h
  exact ⟨hcleared.sinks, hcleared.loggers⟩

theorem obtain (h : j.Fileless) (name : String) (level : Option Int) :
    (j.obtain name level).value.Fileless := by
  refine ⟨h.sinks, fun logger' hmem sink hsink => ?_⟩
  simp only [Journal.obtain] at hmem
  split_ifs at hmem with hknown
  · obtain ⟨logger, hlogger, rfl⟩ := List.mem_map.1 hmem
    split_ifs at hsink with hname
    · obtain hold | hnew := mem_sinks_foldl_attach hsink
      · exact h.loggers logger hlogger sink hold
      · exact h.sinks sink hnew
    · exact h.loggers logger hlogger sink hsink
  · obtain hold | hnew := List.mem_append.1 hmem
    · exact h.loggers logger' hold sink hsink
    · rw [List.mem_singleton.1 hnew] at hsink
      obtain hold | hnew := mem_sinks_foldl_attach hsink
      · cases hold
      · exact h.sinks sink hnew

end Fileless

/-- A request for a log file fails for every journal, or takes the file from every one, or
gives one to each. -/
theorem setFile_cases (disk : Disk) (path : String) :
    (∃ fault, ∀ j : Journal, j.setFile disk path = .error fault) ∨
    (∀ j : Journal, j.setFile disk path = .ok ({ j.detach? j.file with file := none }, disk)) ∨
    ∃ disk', ∀ j : Journal, ∃ j', j.setFile disk path = .ok (j', disk') ∧
      ∃ sink ∈ j'.sinks, sink.place? ≠ none := by
  unfold setFile
  by_cases hpath : path.isEmpty
  · simp only [hpath, if_true]
    exact .inr (.inl fun _ => rfl)
  · simp only [hpath]
    cases disk.openForAppend (Path.absolute disk.cwdPath path) with
    | error fault => exact .inl ⟨fault, fun _ => rfl⟩
    | ok opened =>
      obtain ⟨place, disk'⟩ := opened
      refine .inr (.inr ⟨disk', fun j => ⟨_, rfl, ⟨j.nextSerial, .file place⟩, ?_, ?_⟩⟩)
      · simp [attach]
      · simp [Sink.place?]

theorem mem_sinks_setScreen {j : Journal} {sink : Sink} (h : sink ∈ j.sinks)
    (env : Environment) : sink ∈ (j.setScreen env true).sinks := by
  unfold setScreen
  split
  next => exact List.mem_append_left _ h
  next heq _ => cases heq
  next => exact h

/-- Notes go to the screen. -/
theorem Fileless.deliveries {j : Journal} (h : j.Fileless) (note : Note) :
    ∀ delivery ∈ j.deliveries note, ∃ line, delivery = .screen line := by
  intro delivery hmem
  unfold Journal.deliveries at hmem
  split at hmem
  · cases hmem
  · next logger hfind =>
    split_ifs at hmem
    · cases hmem
    · exact ⟨_, List.mem_singleton.1 hmem⟩
    · cases hmem
    · obtain ⟨sink, hsink, rfl⟩ := List.mem_map.1 hmem
      have hplace := h.loggers logger (List.mem_of_find?_eq_some hfind) sink hsink
      cases hdestination : sink.destination with
      | screen debug colour =>
        exact ⟨Style.screenLine debug colour note, by rw [deliver, hdestination]⟩
      | file place =>
        rw [Sink.place?, hdestination] at hplace
        cases hplace

end Journal

namespace Machine

/-- A note is shown on the screen, if at all. -/
theorem tell_of_fileless {m : Machine σ} (h : m.journal.Fileless) (note : Note) :
    ∃ shown, m.tell note = { m with screen := shown } := by
  have hscreen := h.deliveries note
  unfold tell
  generalize m.journal.deliveries note = deliveries at hscreen
  clear h
  induction deliveries generalizing m with
  | nil => exact ⟨m.screen, rfl⟩
  | cons delivery rest ih =>
    obtain ⟨line, rfl⟩ := hscreen delivery List.mem_cons_self
    obtain ⟨shown, hshown⟩ := @ih (m.deliver (.screen line))
      fun other hother => hscreen other (List.mem_cons_of_mem _ hother)
    exact ⟨shown, hshown⟩

/-- The two states differ in the log and on the screen at most, and neither keeps a log in a
file. -/
structure Twin (m m' : Machine σ) : Prop where
  depth : m'.depth = m.depth
  words : m'.words = m.words
  workspace : m'.workspace = m.workspace
  trace : m'.trace = m.trace
  fileless : m.journal.Fileless
  fileless' : m'.journal.Fileless

/-- The same came out, and the states are twins. -/
structure Twins {α : Type} (result result' : α × Machine σ) : Prop where
  value : result'.1 = result.1
  twin : result.2.Twin result'.2

namespace Twin

variable {m m' : Machine σ}

theorem pair {α : Type} (h : m.Twin m') (value : α) : Twins (value, m) (value, m') := ⟨rfl, h⟩

theorem record (h : m.Twin m') (event : Event) : (m.record event).Twin (m'.record event) :=
  ⟨h.depth, h.words, h.workspace, congrArg (event :: ·) h.trace, h.fileless, h.fileless'⟩

theorem given (h : m.Twin m') (words : List String) : (m.given words).Twin (m'.given words) :=
  ⟨h.depth, rfl, h.workspace, h.trace, h.fileless, h.fileless'⟩

theorem put (h : m.Twin m') (w : Workspace σ) :
    Twin { m with workspace := w } { m' with workspace := w } :=
  ⟨h.depth, h.words, rfl, h.trace, h.fileless, h.fileless'⟩

theorem tell (h : m.Twin m') (note : Note) : (m.tell note).Twin (m'.tell note) := by
  obtain ⟨shown, hm⟩ := tell_of_fileless h.fileless note
  obtain ⟨shown', hm'⟩ := tell_of_fileless h.fileless' note
  rw [hm, hm']
  exact ⟨h.depth, h.words, h.workspace, h.trace, h.fileless, h.fileless'⟩

theorem tellAll (h : m.Twin m') (notes : List Note) :
    (m.tellAll notes).Twin (m'.tellAll notes) := by
  unfold Machine.tellAll
  induction notes generalizing m m' with
  | nil => exact h
  | cons note rest ih => exact ih (h.tell note)

/-- Twins whose logs are set up anew, without a file, are twins. -/
theorem withLog (h : m.Twin m') {j j' : Journal} (hj : j.Fileless) (hj' : j'.Fileless)
    (disk : Disk) : (m.withLog j disk).Twin (m'.withLog j' disk) := by
  refine ⟨h.depth, h.words, ?_, h.trace, hj, hj'⟩
  simp [Machine.withLog, h.workspace]

theorem journal (h : m.Twin m') {j j' : Journal} (hj : j.Fileless) (hj' : j'.Fileless) :
    Twin { m with journal := j } { m' with journal := j' } :=
  ⟨h.depth, h.words, h.workspace, h.trace, hj, hj'⟩

theorem restart (h : m.Twin m') (path : String) (debug : Bool)
    (hfileless : (m.changeLog (.restart path debug)).2.journal.Fileless) :
    Twins (m.changeLog (.restart path debug)) (m'.changeLog (.restart path debug)) := by
  have hclear : ∀ j : Journal, j.Fileless →
      (if debug then j.enableDebug else j).clear.Fileless := by
    intro j hj
    split_ifs
    · exact hj.enableDebug.clear
    · exact hj.clear
  have hj := hclear m.journal h.fileless
  have hj' := hclear m'.journal h.fileless'
  simp only [Machine.changeLog, Journal.restart, h.workspace] at hfileless ⊢
  by_cases hpath : path.isEmpty
  · simp only [hpath, if_true]
    exact ⟨rfl, h.withLog (hj.setScreen _ true) (hj'.setScreen _ true) _⟩
  · simp only [hpath] at hfileless ⊢
    obtain ⟨fault, hfault⟩ | hdrop | ⟨disk, hopened⟩ :=
      Journal.setFile_cases m.workspace.disk path
    · simp only [hfault]
      exact ⟨rfl, h.withLog hj hj' _⟩
    · simp only [hdrop]
      exact ⟨rfl, h.withLog (hj.dropFile.setScreen _ true) (hj'.dropFile.setScreen _ true) _⟩
    · obtain ⟨j', heq, sink, hmem, hsink⟩ :=
        hopened (if debug then m.journal.enableDebug else m.journal).clear
      simp only [heq] at hfileless
      exact absurd (hfileless.sinks sink (Journal.mem_sinks_setScreen hmem _)) hsink

theorem setFile (h : m.Twin m') (path : String)
    (hfileless : (m.changeLog (.file path)).2.journal.Fileless) :
    Twins (m.changeLog (.file path)) (m'.changeLog (.file path)) := by
  simp only [Machine.changeLog, h.workspace] at hfileless ⊢
  obtain ⟨fault, hfault⟩ | hdrop | ⟨disk, hopened⟩ :=
    Journal.setFile_cases m.workspace.disk path
  · simp only [hfault]
    exact ⟨rfl, h⟩
  · simp only [hdrop]
    exact ⟨rfl, h.withLog h.fileless.dropFile h.fileless'.dropFile _⟩
  · obtain ⟨j', heq, sink, hmem, hsink⟩ := hopened m.journal
    simp only [heq] at hfileless
    exact absurd (hfileless.sinks sink hmem) hsink

/-- A request that opens no log file comes to the same for twins, and leaves them twins. -/
theorem changeLog (h : m.Twin m') (change : Journal.Change)
    (hfileless : (m.changeLog change).2.journal.Fileless) :
    Twins (m.changeLog change) (m'.changeLog change) := by
  cases change with
  | keep => exact ⟨rfl, h⟩
  | restart path debug => exact h.restart path debug hfileless
  | obtain name level =>
    have hobtain := h.journal (h.fileless.obtain name level) (h.fileless'.obtain name level)
    exact ⟨rfl, hobtain.tellAll _⟩
  | level level => exact ⟨rfl, h.journal (h.fileless.setLevel level) (h.fileless'.setLevel level)⟩
  | screen enabled =>
    have henvironment : m'.workspace.environment = m.workspace.environment := by rw [h.workspace]
    rw [Machine.changeLog, Machine.changeLog, henvironment]
    exact ⟨rfl, h.journal (h.fileless.setScreen _ enabled) (h.fileless'.setScreen _ enabled)⟩
  | file path => exact h.setFile path hfileless

end Twin

end Machine

end CommandShell
