import CommandShell.Proofs.Journal.Destinations

/-!
# The levels of loggers

The level of a logger is kept with the logger, and what it should be follows from the journal: the
level that was set for all of them, if there is one, and otherwise debug mode.  Three requests
write levels, each in other circumstances, and loggers are made before and after them.  As long as
nobody chooses a level for a logger of its own, all loggers have the level that the journal tells,
and that depends on nothing but the last level that was set and whether debug mode was asked for.
-/

namespace CommandShell

namespace Journal

/-! ## Sequences of requests -/

/-- The level that a request sets for all loggers. -/
def Change.level? : Change → Option Int
  | .level n => some n
  | _ => none

/-- The request asks for debug mode. -/
def Change.debugs : Change → Bool
  | restart _ debug => debug
  | _ => false

/-- The name of the logger that a request is for. -/
def Change.logger? : Change → Option String
  | obtain name _ => some (Logger.canonical name)
  | _ => none

/-- The request chooses a level for one logger. -/
def Change.singles : Change → Bool
  | obtain _ chosen => chosen.isSome
  | _ => false

/-- What requests, in order, make of the log of a process, which starts in debug mode or not.  Each
of them succeeds or fails; whatever happens to the files and the environment between them. -/
inductive After (debug : Bool) : List Change → Journal → Prop
  | start : After debug [] { debug := debug }
  | change {σ : Type} {m : Machine σ} {requests : List Change}
    (h : After debug requests m.journal) (request : Change) :
    After debug (requests ++ [request]) (m.changeLog request).2.journal

/-! ## Destinations -/

/-- The names of the loggers, with their levels. -/
def levels (j : Journal) : List (String × Int) :=
  j.loggers.map fun logger => (logger.name, logger.level)

/-- The two differ in destinations only. -/
structure SameLevels (j k : Journal) : Prop where
  level : k.level = j.level
  debug : k.debug = j.debug
  levels : k.levels = j.levels

namespace SameLevels

theorem refl (j : Journal) : SameLevels j j := ⟨rfl, rfl, rfl⟩

theorem trans {j k l : Journal} (h : SameLevels j k) (h' : SameLevels k l) : SameLevels j l :=
  ⟨h'.level.trans h.level, h'.debug.trans h.debug, h'.levels.trans h.levels⟩

end SameLevels

variable {j : Journal}

theorem sameLevels_attach (j : Journal) (sink : Sink) : SameLevels j (j.attach sink) := by
  refine ⟨rfl, rfl, ?_⟩
  simp only [levels, attach, List.map_map]
  refine List.map_congr_left fun logger _ => ?_
  simp only [Function.comp, Logger.attach]
  split <;> rfl

theorem sameLevels_detach (j : Journal) (sink : Sink) : SameLevels j (j.detach sink) := by
  refine ⟨rfl, rfl, ?_⟩
  simp only [levels, detach, List.map_map]
  rfl

theorem sameLevels_detach? (j : Journal) (sink : Option Sink) : SameLevels j (j.detach? sink) := by
  cases sink with
  | none => exact .refl j
  | some sink => exact j.sameLevels_detach sink

theorem sameLevels_clear (j : Journal) : SameLevels j j.clear := by
  have hfold : ∀ (sinks : List Sink) (k : Journal), SameLevels k (sinks.foldl detach k) := by
    intro sinks
    induction sinks with
    | nil => exact SameLevels.refl
    | cons sink rest ih => exact fun k => (k.sameLevels_detach sink).trans (ih _)
  obtain ⟨hlevel, hdebug, hlevels⟩ := hfold j.sinks j
  exact ⟨hlevel, hdebug, hlevels⟩

theorem sameLevels_setScreen (j : Journal) (env : Environment) (enabled : Bool) :
    SameLevels j (j.setScreen env enabled) := by
  unfold setScreen
  split
  next =>
    obtain ⟨hlevel, hdebug, hlevels⟩ := sameLevels_attach { j with screen := _ } _
    exact ⟨hlevel, hdebug, hlevels⟩
  next =>
    obtain ⟨hlevel, hdebug, hlevels⟩ := sameLevels_detach { j with screen := _ } _
    exact ⟨hlevel, hdebug, hlevels⟩
  next => exact .refl j

theorem sameLevels_setFile {disk disk' : Disk} {path : String} {k : Journal}
    (h : j.setFile disk path = .ok (k, disk')) : SameLevels j k := by
  obtain ⟨hlevel, hdebug, hlevels⟩ := j.sameLevels_detach? j.file
  unfold setFile at h
  split_ifs at h
  · cases h
    exact ⟨hlevel, hdebug, hlevels⟩
  · cases hopen : disk.openForAppend (Path.absolute disk.cwdPath path) with
    | error fault =>
      rw [hopen] at h
      cases h
    | ok opened =>
      rw [hopen] at h
      cases h
      obtain ⟨hlevel', hdebug', hlevels'⟩ :=
        sameLevels_attach { j.detach? j.file with file := _ } ⟨j.nextSerial, .file opened.1⟩
      exact ⟨hlevel'.trans hlevel, hdebug'.trans hdebug, hlevels'.trans hlevels⟩

/-! ## Requests -/

/-- What a request does to the levels of a journal, its destinations apart. -/
def graded (j : Journal) : Change → Journal
  | .restart _ debug => if debug then j.enableDebug else j
  | .obtain name level => (j.obtain name level).value
  | .level level => j.setLevel level
  | _ => j

/-- Everything else that a request does, it does to the destinations, also if it fails. -/
theorem sameLevels_changeLog {σ : Type} (m : Machine σ) (request : Change) :
    SameLevels (m.journal.graded request) (m.changeLog request).2.journal := by
  cases request with
  | keep => exact .refl _
  | restart path debug =>
    unfold Machine.changeLog restart graded
    dsimp only
    generalize (if debug then m.journal.enableDebug else m.journal) = j
    have hclear := j.sameLevels_clear
    split_ifs
    · exact hclear.trans (sameLevels_setScreen _ _ true)
    · split
      next => exact hclear
      next hset =>
        exact (hclear.trans (sameLevels_setFile hset)).trans (sameLevels_setScreen _ _ true)
  | obtain name level =>
    rw [Machine.changeLog, Machine.journal_tellAll]
    exact .refl _
  | level level => exact .refl _
  | screen enabled => exact sameLevels_setScreen _ _ enabled
  | file path =>
    unfold Machine.changeLog
    dsimp only
    split
    next hset => exact sameLevels_setFile hset
    next => exact .refl _

theorem level_graded (j : Journal) (request : Change) :
    (j.graded request).level = request.level?.or j.level := by
  cases request with
  | restart path debug => cases debug <;> rfl
  | _ => rfl

theorem debug_graded (j : Journal) (request : Change) :
    (j.graded request).debug = (j.debug || request.debugs) := by
  cases request with
  | restart path debug => cases debug <;> simp [graded, Change.debugs, enableDebug]
  | _ => simp [graded, Change.debugs, setLevel, obtain]

/-- Giving destinations to a logger changes neither its name nor its level. -/
theorem foldl_attach_eq (sinks : List Sink) (logger : Logger) :
    (sinks.foldl Logger.attach logger).name = logger.name ∧
      (sinks.foldl Logger.attach logger).level = logger.level := by
  induction sinks generalizing logger with
  | nil => exact ⟨rfl, rfl⟩
  | cons sink rest ih =>
    have hfirst : (logger.attach sink).name = logger.name ∧
        (logger.attach sink).level = logger.level := by
      rw [Logger.attach]
      split <;> exact ⟨rfl, rfl⟩
    exact ⟨(ih _).1.trans hfirst.1, (ih _).2.trans hfirst.2⟩

/-- A logger that is known keeps its place; a new one comes last. -/
theorem levels_obtain (j : Journal) (name : String) (level : Option Int) :
    (j.obtain name level).value.levels =
      let name' := Logger.canonical name
      let level := level.getD j.defaultLevel
      if (j.find? name').isSome then
        j.levels.map fun entry => if entry.1 == name' then (entry.1, level) else entry
      else j.levels ++ [(name', level)] := by
  simp only [obtain, levels]
  split_ifs
  · rw [List.map_map, List.map_map]
    refine List.map_congr_left fun logger _ => ?_
    dsimp only [Function.comp]
    split_ifs
    · obtain ⟨hname, hlevel⟩ := foldl_attach_eq j.sinks (logger.setLevel _)
      rw [hname, hlevel]
      rfl
    · rfl
  · obtain ⟨hname, hlevel⟩ := foldl_attach_eq j.sinks
      (Logger.setLevel ⟨Logger.canonical name, level.getD j.defaultLevel, []⟩
        (level.getD j.defaultLevel))
    rw [List.map_append, List.map_singleton, hname, hlevel]
    rfl

/-- The names of the loggers that are known. -/
def names (j : Journal) : List String := j.levels.map (·.1)

theorem mem_names_obtain (j : Journal) (name : String) (level : Option Int) (other : String) :
    other ∈ (j.obtain name level).value.names ↔
      other ∈ j.names ∨ Logger.canonical name = other := by
  rw [names, levels_obtain]
  dsimp only
  split_ifs with hknown
  · have hkept : (fun entry : String × Int => entry.1) ∘ (fun entry =>
        if entry.1 == Logger.canonical name then (entry.1, level.getD j.defaultLevel) else entry) =
          fun entry => entry.1 := by
      funext entry
      dsimp only [Function.comp]
      split_ifs <;> rfl
    rw [List.map_map, hkept]
    refine ⟨.inl, ?_⟩
    rintro (hother | rfl)
    · exact hother
    · obtain ⟨logger, hlogger⟩ := Option.isSome_iff_exists.1 hknown
      have hname : logger.name = Logger.canonical name := by simpa using List.find?_some hlogger
      have hmem := List.mem_of_find?_eq_some hlogger
      exact List.mem_map.2 ⟨_, List.mem_map.2 ⟨logger, hmem, rfl⟩, hname⟩
  · simp [names, eq_comm]

/-- The loggers that are known are those that were, and the one that a request is for. -/
theorem mem_names_graded (j : Journal) (request : Change) (name : String) :
    name ∈ (j.graded request).names ↔ name ∈ j.names ∨ request.logger? = some name := by
  have hlevels : ∀ level, (j.loggers.map (·.setLevel level)).map (fun logger =>
      (logger.name, logger.level)) = j.levels.map fun entry => (entry.1, level) := by
    intro level
    rw [levels, List.map_map, List.map_map]
    rfl
  cases request with
  | restart path debug =>
    cases debug with
    | false => simp [graded, Change.logger?]
    | true =>
      rw [graded, if_pos rfl, names, levels, enableDebug]
      dsimp only
      split_ifs
      · rw [hlevels]
        simp [names, Change.logger?]
      · simp [names, levels, Change.logger?]
  | obtain other level =>
    rw [graded, mem_names_obtain, Change.logger?, Option.some_inj]
  | level n =>
    rw [graded, names, levels, setLevel, hlevels]
    simp [names, Change.logger?]
  | _ => simp [graded, Change.logger?]

/-! ## All levels are the same -/

/-- All loggers have the level that the journal tells. -/
def Even (j : Journal) : Prop := ∀ entry ∈ j.levels, entry.2 = j.defaultLevel

namespace Even

theorem of_sameLevels {k : Journal} (h : Even j) (hk : SameLevels j k) : Even k := by
  intro entry hentry
  rw [hk.levels] at hentry
  rw [h entry hentry, defaultLevel, defaultLevel, hk.level, hk.debug]

/-- Setting one level for all loggers makes them even, whatever they were. -/
theorem setLevel (j : Journal) (level : Int) : Even (j.setLevel level) := by
  intro entry hentry
  simp only [levels, Journal.setLevel, List.map_map, List.mem_map] at hentry
  obtain ⟨logger, -, rfl⟩ := hentry
  rfl

/-- Debug mode changes the level of all loggers, unless one was set, which counts more. -/
theorem enableDebug (h : Even j) : Even j.enableDebug := by
  intro entry hentry
  simp only [levels, Journal.enableDebug, defaultLevel] at hentry ⊢
  cases hlevel : j.level with
  | none =>
    rw [hlevel] at hentry
    simp only [Option.isNone_none, if_true, List.map_map, List.mem_map] at hentry
    obtain ⟨logger, -, rfl⟩ := hentry
    rfl
  | some level =>
    rw [hlevel] at hentry
    have heven := h entry hentry
    rwa [defaultLevel, hlevel] at heven

/-- A logger that is asked for without a level gets the one that all have. -/
theorem obtain (h : Even j) (name : String) : Even (j.obtain name none).value := by
  intro entry hentry
  rw [levels_obtain] at hentry
  change entry.2 = j.defaultLevel
  dsimp only at hentry
  split_ifs at hentry
  · obtain ⟨before, hbefore, rfl⟩ := List.mem_map.1 hentry
    split_ifs
    · rfl
    · exact h before hbefore
  · obtain hold | hnew := List.mem_append.1 hentry
    · exact h entry hold
    · rw [List.mem_singleton.1 hnew]
      rfl

/-- **One request keeps the levels even,** unless it chooses a level for one logger. -/
theorem changeLog {σ : Type} {m : Machine σ} (h : Even m.journal) {request : Change}
    (hrequest : request.singles = false) : Even (m.changeLog request).2.journal := by
  refine of_sameLevels ?_ (sameLevels_changeLog m request)
  cases request with
  | restart path debug =>
    cases debug with
    | false => exact h
    | true => exact h.enableDebug
  | obtain name level =>
    cases level with
    | none => exact h.obtain name
    | some level => cases hrequest
  | level level => exact setLevel m.journal level
  | _ => exact h

end Even

/-! ## Whole sequences -/

namespace After

variable {debug : Bool} {requests : List Change}

theorem level_eq (h : After debug requests j) :
    j.level = (requests.filterMap Change.level?).getLast? := by
  induction h with
  | start => rfl
  | change _ request ih =>
    rw [(sameLevels_changeLog _ request).level, level_graded, ih, List.filterMap_append]
    cases hlevel : request.level? <;> simp [hlevel]

theorem debug_eq (h : After debug requests j) :
    j.debug = (debug || requests.any Change.debugs) := by
  induction h with
  | start => simp
  | change _ request ih =>
    rw [(sameLevels_changeLog _ request).debug, debug_graded, ih]
    simp [Bool.or_assoc]

theorem mem_names (h : After debug requests j) (name : String) :
    name ∈ j.names ↔ name ∈ requests.filterMap Change.logger? := by
  induction h with
  | start => simp [names, levels]
  | change _ request ih =>
    rw [names, (sameLevels_changeLog _ request).levels, ← names, mem_names_graded, ih,
      List.filterMap_append]
    cases hlogger : request.logger? <;> simp [hlogger, eq_comm]

theorem even (h : After debug requests j)
    (hrequests : ∀ request ∈ requests, request.singles = false) : Even j := by
  induction h with
  | start =>
    intro entry hentry
    cases hentry
  | change _ request ih =>
    refine (ih fun other hother => ?_).changeLog ?_
    · exact hrequests other (List.mem_append_left _ hother)
    · exact hrequests request (by simp)

end After

/-- **The levels of all loggers.**  Whatever requests are made of the log, in whatever order and
whether they succeed or fail, as long as none of them chooses a level for one logger: the loggers
that were asked for are known, and each of them has the level that was last set for all, if there
is one; otherwise it shows everything in debug mode, and warnings if not. -/
theorem after_levels {debug : Bool} {requests : List Change} {j : Journal}
    (h : After debug requests j) (hrequests : ∀ request ∈ requests, request.singles = false) :
    (∀ name, (∃ logger ∈ j.loggers, logger.name = name) ↔
      name ∈ requests.filterMap Change.logger?) ∧
    j.level = (requests.filterMap Change.level?).getLast? ∧
    j.debug = (debug || requests.any Change.debugs) ∧
    ∀ logger ∈ j.loggers, logger.level =
      match j.level with
      | some level => level
      | none => if j.debug then Level.debug else Level.warning := by
  refine ⟨fun name => ?_, h.level_eq, h.debug_eq, fun logger hlogger => ?_⟩
  · rw [← h.mem_names, names, levels]
    simp
  · have heven := h.even hrequests (logger.name, logger.level)
      (List.mem_map.2 ⟨logger, hlogger, rfl⟩)
    refine heven.trans ?_
    rw [defaultLevel]
    cases j.level <;> rfl

/-- Requests one after another, with nothing between them. -/
def requested {σ : Type} (m : Machine σ) (requests : List Change) : Machine σ :=
  requests.foldl (fun m request => (m.changeLog request).2) m

theorem After.requested {σ : Type} {m : Machine σ} {debug : Bool} {before : List Change}
    (h : After debug before m.journal) (requests : List Change) :
    After debug (before ++ requests) (Journal.requested m requests).journal := by
  induction requests generalizing m before with
  | nil =>
    rw [List.append_nil]
    exact h
  | cons request rest ih =>
    rw [← List.singleton_append, ← List.append_assoc]
    exact ih (h.change request)

/-- Loggers are made before debug mode is asked for, before a level is set, and after it.  That the
log file cannot be opened keeps nothing of this from happening. -/
theorem requested_levels :
    let m : Machine Unit :=
      { workspace := { store := {}, disk := {}, environment := {}, application := () }
        journal := {} }
    let debugging : List Change := [.obtain "a" none, .restart "/" true, .obtain "b" none]
    let setting : List Change := debugging ++ [.level Level.info, .screen false, .obtain "c" none]
    ((requested m [.obtain "a" none]).changeLog (.restart "/" true)).1.toOption = none ∧
      (After false debugging (requested m debugging).journal ∧
        (∀ request ∈ debugging, request.singles = false) ∧
        ∀ logger ∈ (requested m debugging).journal.loggers, logger.level = Level.debug) ∧
      After false setting (requested m setting).journal ∧
        (∀ request ∈ setting, request.singles = false) ∧
        (∃ logger ∈ (requested m setting).journal.loggers, logger.name = "c") ∧
        ∀ logger ∈ (requested m setting).journal.loggers, logger.level = Level.info := by
  intro m debugging setting
  have hstart : After false [] m.journal := .start
  have hafter : ∀ requests, After false requests (requested m requests).journal := by
    intro requests
    have h := hstart.requested requests
    rwa [List.nil_append] at h
  have hdebugging : ∀ request ∈ debugging, request.singles = false := by decide
  have hsetting : ∀ request ∈ setting, request.singles = false := by decide
  obtain ⟨-, hlevel, hdebug, hlevels⟩ := after_levels (hafter debugging) hdebugging
  obtain ⟨hnames, hlevel', -, hlevels'⟩ := after_levels (hafter setting) hsetting
  refine ⟨by decide +kernel, ⟨hafter debugging, hdebugging, ?_⟩, hafter setting, hsetting,
    (hnames "c").2 (by decide), ?_⟩
  · intro logger hlogger
    rw [hlevels logger hlogger, hlevel, hdebug]
    rfl
  · intro logger hlogger
    rw [hlevels' logger hlogger, hlevel']
    rfl

end Journal

end CommandShell
