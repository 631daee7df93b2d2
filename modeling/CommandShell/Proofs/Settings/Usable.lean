import CommandShell.Proofs.Line.Completion
import CommandShell.Proofs.Run.Nesting
import CommandShell.Proofs.Settings.Loading
import CommandShell.Shell

/-!
# Shells from loaded settings

Settings that pass validation describe a shell that can be used: its limits are positive, and
it has delimiters and a comment marker.  So it takes lines, and cuts them at the end only.
-/

namespace CommandShell

/-! ## Reading settings that pass -/

namespace Field.Passes

variable {f : Field} {v : Value}

theorem positive (h : f.Passes v) (hkinds : f.kinds = [.integer])
    (hcheck : f.check = some .positive) : ∃ n, v = .int n ∧ 1 ≤ n := by
  obtain ⟨n, rfl⟩ := f.eq_int_of_admits hkinds h.admits
  have hproblem := h.check .positive hcheck
  refine ⟨n, rfl, ?_⟩
  by_contra hneg
  have hnot : Check.isPositive (.inl n) = false := by
    rw [Check.isPositive, decide_eq_false_iff_not]
    omega
  rw [Check.problems, Value.number?] at hproblem
  dsimp only at hproblem
  rw [hnot, if_neg Bool.false_ne_true] at hproblem
  split_ifs at hproblem
  cases hproblem

theorem notEmpty (h : f.Passes v) (hkinds : f.kinds = [.text])
    (hcheck : f.check = some .notEmpty) : ∃ s, v = .text s ∧ s ≠ "" := by
  have hadmits := h.admits
  rw [Field.admits, hkinds] at hadmits
  have hproblem := h.check .notEmpty hcheck
  cases v with
  | text s =>
    refine ⟨s, rfl, ?_⟩
    rintro rfl
    cases hproblem
  | _ => cases hadmits

theorem logLevel (h : f.Passes v) (hcheck : f.check = some .logLevel) :
    (Level.parse? v.shown).isSome = true := by
  have hproblem := h.check .logLevel hcheck
  rw [Check.problems] at hproblem
  split_ifs at hproblem with hshown hlevel
  · exact hlevel
  · cases hproblem

end Field.Passes

namespace Settings.Passing

variable {historyFile : String} {settings : Settings}

/-- The value of a field passes. -/
theorem of_find? (h : settings.Passing historyFile) {name : String} {f : Field}
    (hf : (Schema.shell historyFile).find? name = some f) : f.Passes (settings.get name) := by
  have hname : f.name = name := by simpa using List.find?_some hf
  exact hname ▸ h f (List.mem_of_find?_eq_some hf)

/-- A limit is read without further ado. -/
theorem integer?_eq (h : settings.Passing historyFile) (name : String) {f : Field}
    (hf : (Schema.shell historyFile).find? name = some f) (hkinds : f.kinds = [.integer])
    (hcheck : f.check = some .positive) :
    ∃ n, 1 ≤ n ∧ ∀ channel, settings.integer? channel name = pure (.ok (some n)) := by
  obtain ⟨n, hget, hn⟩ := (h.of_find? hf).positive hkinds hcheck
  refine ⟨n, hn, fun channel => ?_⟩
  rw [integer?, hget]
  rfl

/-- A text that must not be empty is not. -/
theorem text_ne (h : settings.Passing historyFile) (name : String) {f : Field}
    (hf : (Schema.shell historyFile).find? name = some f) (hkinds : f.kinds = [.text])
    (hcheck : f.check = some .notEmpty) (other : String) : settings.text name other ≠ "" := by
  obtain ⟨s, hget, hs⟩ := (h.of_find? hf).notEmpty hkinds hcheck
  rw [text, text?, hget]
  exact hs

theorem level (h : settings.Passing historyFile) :
    ∃ level, Level.parse? (settings.text "log_level") = some level := by
  obtain ⟨f, hf, hcheck⟩ : ∃ f, (Schema.shell historyFile).find? "log_level" = some f ∧
      f.check = some .logLevel := ⟨_, rfl, rfl⟩
  have hpasses := h.of_find? hf
  have hlevel := hpasses.logLevel hcheck
  have htext : settings.text "log_level" = (settings.get "log_level").shown := by
    rw [text, text?]
    split
    next hnull => exact absurd hnull hpasses.ne_null
    next => rfl
  rw [htext]
  exact Option.isSome_iff_exists.1 hlevel

/-- The shell has the limits and the texts that the settings tell. -/
theorem ofSettings_eq (h : settings.Passing historyFile) {depth words : Int}
    (hdepth : ∀ channel, settings.integer? channel "max_depth" = pure (.ok (some depth)))
    (hwords : ∀ channel, settings.integer? channel "max_args" = pure (.ok (some words)))
    (channel : String) (root : CommandId) :
    Shell.ofSettings channel settings root = pure (.ok
      { prompt := settings.text "prompt" "> "
        rules :=
          { delimiters := settings.text "delimiters"
            comment := settings.text "comment" "#"
            maxWords := words }
        maxDepth := depth
        root := root }) := by
  have hdelimiters : Shell.delimitersOf settings = settings.text "delimiters" := by
    have hne := h.text_ne "delimiters" rfl rfl rfl ""
    rw [Shell.delimitersOf, if_neg]
    simpa using hne
  rw [Shell.ofSettings, Settings.integer, Settings.integer, hdepth, hwords, hdelimiters]
  rfl

end Settings.Passing

/-! ## Lines -/

/-- With a positive limit, the words of a line are cut at the end. -/
theorem LineRules.split_eq_take {rules : LineRules} (h : 1 ≤ rules.maxWords) (line : String) :
    (rules.split line).value = (wordsOf rules.delimiters line).take rules.maxWords.toNat :=
  value_split_of_nonneg (by omega) line

/-- With a positive limit, no line is refused unless another one runs. -/
theorem Interpreter.dispatch_outermost {σ : Type} {I : Interpreter σ} (h : 1 ≤ I.shell.maxDepth)
    {m : Machine σ} (hm : m.depth = 0) (line : String) :
    I.dispatch line m = nested line (I.runLine I.dispatch line) m := by
  rw [I.dispatch_eq, if_pos]
  omega

/-- **Loaded settings describe a shell that can be used.**  Whatever a document says, or the
octets of a file: if settings come of it, their limits are read as positive integers without a
warning, their level of the log is known, and they describe a shell with these limits, with
delimiters and with a comment marker.  It keeps the first words of a line, as many as it may, and
runs every line that is not run from within another. -/
theorem shell_of_loaded {channel : String} {loaded : Settings.Loaded}
    (h : (∃ (historyFile : String) (document : Table), document.Solid ∧
        (Settings.ofDocument channel (.shell historyFile) document).value = .ok loaded) ∨
      ∃ disk env path, (Settings.load channel disk env path).value = .ok loaded)
    (other : String) (root : CommandId) :
    ∃ shell depth words level,
      loaded.settings.integer? other "max_depth" = pure (.ok (some depth)) ∧
      loaded.settings.integer? other "max_args" = pure (.ok (some words)) ∧
      Level.parse? (loaded.settings.text "log_level") = some level ∧
      Shell.ofSettings other loaded.settings root = pure (.ok shell) ∧
      shell.maxDepth = depth ∧ 1 ≤ depth ∧ shell.rules.maxWords = words ∧ 1 ≤ words ∧
      shell.rules.delimiters ≠ "" ∧ shell.rules.comment ≠ "" ∧
      (∀ line, (shell.rules.split line).value =
        (wordsOf shell.rules.delimiters line).take words.toNat) ∧
      ∀ {σ : Type} (handlers : Handlers σ) (m : Machine σ) (line : String), m.depth = 0 →
        let I : Interpreter σ := ⟨shell, handlers⟩
        I.dispatch line m = Interpreter.nested line (I.runLine I.dispatch line) m := by
  obtain ⟨historyFile, hpassing⟩ : ∃ historyFile, loaded.settings.Passing historyFile := by
    obtain ⟨historyFile, document, hsolid, hdocument⟩ | ⟨disk, env, path, hload⟩ := h
    · exact ⟨historyFile, Settings.passing_ofDocument hsolid hdocument⟩
    · exact ⟨_, Settings.passing_load hload⟩
  obtain ⟨depth, hdepth, hmaxDepth⟩ := hpassing.integer?_eq "max_depth" rfl rfl rfl
  obtain ⟨words, hwords, hmaxWords⟩ := hpassing.integer?_eq "max_args" rfl rfl rfl
  obtain ⟨level, hlevel⟩ := hpassing.level
  refine ⟨_, depth, words, level, hmaxDepth other, hmaxWords other, hlevel,
    hpassing.ofSettings_eq hmaxDepth hmaxWords other root, rfl, hdepth, rfl, hwords,
    hpassing.text_ne "delimiters" rfl rfl rfl "", hpassing.text_ne "comment" rfl rfl rfl "#",
    LineRules.split_eq_take hwords, fun handlers m line hm => ?_⟩
  exact Interpreter.dispatch_outermost hdepth hm line

/-- A table in which every setting that is checked is wrong. -/
def botched : Table :=
  [("max_depth", .bool true), ("max_args", .int (-3)), ("delimiters", .text ""),
    ("comment", .list []), ("log_level", .text "loud"), ("colour", .int 1)]

theorem validate_botched :
    ∃ result, validate Settings.sectionName botched (.shell "") = .ok result ∧
      Settings.accepted botched result = [("colour", .int 1)] := by
  obtain ⟨result, hresult, hinvalid⟩ :
      ∃ result, validate Settings.sectionName botched (.shell "") = .ok result ∧
        result.invalid = ["delimiters", "comment", "max_depth", "max_args", "log_level"] :=
    exists_validate_of_invalid (by decide +kernel)
  refine ⟨result, hresult, ?_⟩
  rw [Settings.accepted, hinvalid]
  rfl

/-- The document with this table describes a shell with the limits of the schema. -/
theorem botched_shell :
    Table.Solid [(Settings.sectionName, .table botched)] ∧
    ∃ loaded shell,
      (Settings.ofDocument "" (.shell "") [(Settings.sectionName, .table botched)]).value =
        .ok loaded ∧
      Shell.ofSettings "" loaded.settings ⟨0⟩ = pure (.ok shell) ∧
      shell.maxDepth = 64 ∧ shell.rules.maxWords = 32 ∧
      shell.rules.delimiters ≠ "" ∧ shell.rules.comment ≠ "" ∧
      ∃ level, Level.parse? (loaded.settings.text "log_level") = some level := by
  have hsolid : Table.Solid [(Settings.sectionName, .table botched)] := by
    have hbotched : botched.Solid := by
      simp only [Table.Solid, botched, List.forall_mem_cons, List.not_mem_nil, false_implies,
        implies_true, and_true]
      exact ⟨.bool _, .int _, .text _, .list (by simp), .text _, .int _⟩
    simpa [Table.Solid] using Value.Solid.table hbotched
  obtain ⟨result, hresult, haccepted⟩ := validate_botched
  have hvalue :
      (Settings.ofDocument "" (.shell "") [(Settings.sectionName, .table botched)]).value =
        .ok ⟨Settings.ofTable [("colour", .int 1)] (.shell ""), result.errors⟩ := by
    change (Settings.ofSection "" (.shell "") botched).value = _
    rw [Settings.value_ofSection, hresult, ← haccepted]
    rfl
  obtain ⟨shell, depth, words, level, hdepth, hwords, hlevel, hshell, rfl, -, rfl, -, hdelimiters,
    hcomment, -⟩ := shell_of_loaded (.inl ⟨_, _, hsolid, hvalue⟩) "" ⟨0⟩
  refine ⟨hsolid, _, shell, hvalue, hshell, ?_, ?_, hdelimiters, hcomment, level, hlevel⟩
  · have hsome : some (64 : Int) = some shell.maxDepth :=
      Except.ok.inj (congrArg Noted.value hdepth)
    exact (Option.some.inj hsome).symm
  · have hsome : some (32 : Int) = some shell.rules.maxWords :=
      Except.ok.inj (congrArg Noted.value hwords)
    exact (Option.some.inj hsome).symm

end CommandShell
