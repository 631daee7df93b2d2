import CommandShell.Proofs.Settings.Passing

/-!
# How loading ends

Loading ends in one of three ways.  It answers with settings, which pass validation.  It is
given up, after a note that tells why: the file is not there, it does not follow the grammar,
or what should be a table is none.  Or it ends with a cause that nobody on the way expects: the
path cannot be used, the system refuses to look at the file or to read it, a directory is in its
place, or its octets are spoilt.
-/

namespace CommandShell

theorem bind_eq_error {ε α β : Type} {x : Except ε α} {f : α → Except ε β} {e : ε} :
    x >>= f = .error e ↔ x = .error e ∨ ∃ a, x = .ok a ∧ f a = .error e := by
  cases x <;> simp [bind, Except.bind]

/-! ## Validation -/

variable {table : String} {t : Table} {f : Field} {v : Value} {fault : Fault}

namespace Check

/-- Zero and less must be shown to be complained about. -/
theorem problems_positive_eq_error_iff {n : Int} :
    positive.problems (.int n) = .error fault ↔
      n ≤ 0 ∧ (Value.int n).isShowable = false ∧ fault = .unshowable := by
  have hpositive : isPositive (.inl n) = true ↔ 0 < n := decide_eq_true_iff
  change (if isPositive (.inl n) then _ else _) = _ ↔ _
  by_cases hn : 0 < n
  · simp [hpositive.2 hn, Int.not_le.2 hn]
  · rw [if_neg (mt hpositive.1 hn)]
    split_ifs with hshown
    · simp [hshown]
    · simp [hshown, Int.not_lt.1 hn, eq_comm]

/-- A level must be shown to be read. -/
theorem problems_logLevel_eq_error_iff :
    logLevel.problems v = .error fault ↔ v.isShowable = false ∧ fault = .unshowable := by
  rw [problems]
  split_ifs with hshown
  · simp [hshown]
  · simp [hshown, eq_comm]

end Check

theorem exists_of_validate_eq_error {schema : Schema}
    (h : validate table t schema = .error fault) :
    ∃ f ∈ schema, Validation.ofField table t f = .error fault := by
  induction schema with
  | nil => cases h
  | cons g rest ih =>
    rw [validate, bind_eq_error] at h
    obtain hfirst | ⟨first, -, h⟩ := h
    · exact ⟨g, List.mem_cons_self, hfirst⟩
    · obtain hrest | ⟨others, -, h⟩ := bind_eq_error.1 h
      · obtain ⟨f, hf, herror⟩ := ih hrest
        exact ⟨f, List.mem_cons_of_mem g hf, herror⟩
      · cases h

namespace Field

theorem choiceProblems_eq_error_iff :
    f.choiceProblems table v = .error fault ↔
      f.isChoice v = false ∧ (v :: f.choices.getD []).all Value.isShowable = false ∧
        fault = .unshowable := by
  rw [choiceProblems]
  split_ifs with hchoice hshown
  · simp [hchoice]
  · simp [hshown]
  · simp [hchoice, hshown, eq_comm]

theorem checkProblems_eq_error_iff :
    f.checkProblems table v = .error fault ↔
      ∃ check, f.check = some check ∧ check.problems v = .error fault := by
  unfold checkProblems
  cases f.check with
  | none => simp [pure, Except.pure]
  | some check =>
    simp only [bind_eq_error, Option.some.injEq, exists_eq_left']
    refine or_iff_left ?_
    rintro ⟨_, _, h⟩
    cases h

theorem problems_eq_error_iff :
    f.problems table v = .error fault ↔
      f.admits v = true ∧ (f.choiceProblems table v = .error fault ∨
        (∃ first, f.choiceProblems table v = .ok first) ∧
          f.checkProblems table v = .error fault) := by
  rw [problems]
  split_ifs with hadmits
  · rw [bind_eq_error]
    simp only [bind_eq_error, hadmits, true_and, ← exists_and_right]
    refine or_congr_right (exists_congr fun first => and_congr_right fun _ => ?_)
    refine or_iff_left ?_
    rintro ⟨_, _, h⟩
    cases h
  · simp [hadmits, pure, Except.pure]

end Field

theorem Validation.ofField_eq_error_iff :
    ofField table t f = .error fault ↔
      ∃ v, t.given? f.name = some v ∧ f.problems table v = .error fault := by
  rw [ofField]
  cases t.given? f.name with
  | none => simp
  | some v =>
    simp only [bind_eq_error, Option.some.injEq, exists_eq_left']
    refine or_iff_left ?_
    rintro ⟨_, _, h⟩
    cases h

theorem of_ofField_eq_error (h : Validation.ofField table t f = .error fault) :
    ∃ v, t.get? f.name = some v ∧ f.admits v = true ∧
      (f.isChoice v = false ∨ ∃ check, f.check = some check ∧ check.problems v = .error fault) := by
  obtain ⟨v, hgiven, hproblems⟩ := Validation.ofField_eq_error_iff.1 h
  obtain ⟨hadmits, hchoice | ⟨-, hcheck⟩⟩ := Field.problems_eq_error_iff.1 hproblems
  · exact ⟨v, (Table.given?_eq_some_iff.1 hgiven).1, hadmits,
      .inl (Field.choiceProblems_eq_error_iff.1 hchoice).1⟩
  · exact ⟨v, (Table.given?_eq_some_iff.1 hgiven).1, hadmits,
      .inr (Field.checkProblems_eq_error_iff.1 hcheck)⟩

theorem Field.eq_int_of_admits (hkinds : f.kinds = [.integer]) (h : f.admits v = true) :
    ∃ n, v = .int n := by
  rw [admits, hkinds] at h
  cases v <;> first | exact ⟨_, rfl⟩ | cases h

theorem ofField_of_check {check : Check} {n : Int} (hkinds : .integer ∈ f.kinds)
    (hchoices : f.choices = none) (hcheck : f.check = some check)
    (hget : t.get? f.name = some (.int n)) (h : check.problems (.int n) = .error fault) :
    Validation.ofField table t f = .error fault := by
  have hchoice : f.choiceProblems table (.int n) = .ok [] := by
    rw [Field.choiceProblems_eq_nil_iff, Field.isChoice, hchoices]
  refine Validation.ofField_eq_error_iff.2
    ⟨_, Table.given?_eq_some_iff.2 ⟨hget, Value.noConfusion⟩, ?_⟩
  exact Field.problems_eq_error_iff.2 ⟨List.any_eq_true.2 ⟨.integer, hkinds, rfl⟩,
    .inr ⟨⟨[], hchoice⟩, Field.checkProblems_eq_error_iff.2 ⟨check, hcheck, h⟩⟩⟩

/-- The table gives an integer that is too long to be shown to a field that has to: the level of
the log is shown to be read, a limit is shown if it is not positive. -/
inductive Settings.Overlong (t : Table) : Prop
  | level {n : Int} (hget : t.get? "log_level" = some (.int n))
    (h : (Value.int n).isShowable = false) : Overlong t
  | limit {name : String} {n : Int} (hname : name = "max_depth" ∨ name = "max_args")
    (hget : t.get? name = some (.int n)) (hn : n ≤ 0) (h : (Value.int n).isShowable = false) :
    Overlong t

variable {historyFile : String}

theorem of_validate_shell_eq_error (h : validate table t (.shell historyFile) = .error fault) :
    fault = .unshowable ∧ Settings.Overlong t := by
  have hchoices : ∀ f ∈ Schema.shell historyFile, f.choices = none := by
    simp [Schema.shell]
  have hpositive : ∀ f ∈ Schema.shell historyFile, f.check = some .positive →
      f.kinds = [.integer] ∧ (f.name = "max_depth" ∨ f.name = "max_args") := by
    simp [Schema.shell]
  have hlevel : ∀ f ∈ Schema.shell historyFile, f.check = some .logLevel →
      f.kinds = [.integer, .text] ∧ f.name = "log_level" := by
    simp [Schema.shell]
  have hcustom : ∀ f ∈ Schema.shell historyFile, ∀ problems, f.check ≠ some (.custom problems) := by
    simp [Schema.shell]
  obtain ⟨f, hf, herror⟩ := exists_of_validate_eq_error h
  obtain ⟨v, hget, hadmits, hchoice | ⟨check, hcheck, hproblem⟩⟩ := of_ofField_eq_error herror
  · rw [Field.isChoice, hchoices f hf] at hchoice
    cases hchoice
  cases check with
  | positive =>
    -- What must be positive is an integer by then.
    obtain ⟨hkinds, hname⟩ := hpositive f hf hcheck
    obtain ⟨n, rfl⟩ := f.eq_int_of_admits hkinds hadmits
    obtain ⟨hn, hlong, rfl⟩ := Check.problems_positive_eq_error_iff.1 hproblem
    exact ⟨rfl, .limit hname hget hn hlong⟩
  | notEmpty => cases hproblem
  | logLevel =>
    obtain ⟨hkinds, hname⟩ := hlevel f hf hcheck
    obtain ⟨hlong, rfl⟩ := Check.problems_logLevel_eq_error_iff.1 hproblem
    rw [Field.admits, hkinds] at hadmits
    cases v with
    | int n => exact ⟨rfl, .level (hname ▸ hget) hlong⟩
    | text s => cases hlong
    | _ => cases hadmits
  | custom problems => exact absurd hcheck (hcustom f hf problems)

/-- Validation itself fails in one case only: an integer that has to be shown is too long for
that. -/
theorem validate_shell_eq_error_iff (table : String) (t : Table) (historyFile : String) :
    validate table t (.shell historyFile) = .error fault ↔
      fault = .unshowable ∧ Settings.Overlong t := by
  refine ⟨of_validate_shell_eq_error, ?_⟩
  rintro ⟨rfl, hlong⟩
  obtain ⟨f, hf, herror⟩ : ∃ f ∈ Schema.shell historyFile,
      Validation.ofField table t f = .error .unshowable := by
    cases hlong with
    | level hget h =>
      obtain ⟨f, hf, hname, hkinds, hchoices, hcheck⟩ : ∃ f ∈ Schema.shell historyFile,
          f.name = "log_level" ∧ .integer ∈ f.kinds ∧ f.choices = none ∧
            f.check = some .logLevel := by
        simp [Schema.shell]
      exact ⟨f, hf, ofField_of_check hkinds hchoices hcheck (hname ▸ hget)
        (Check.problems_logLevel_eq_error_iff.2 ⟨h, rfl⟩)⟩
    | @limit name n hname hget hn h =>
      obtain ⟨f, hf, rfl, hkinds, hchoices, hcheck⟩ : ∃ f ∈ Schema.shell historyFile,
          f.name = name ∧ .integer ∈ f.kinds ∧ f.choices = none ∧ f.check = some .positive := by
        obtain rfl | rfl := hname <;> simp [Schema.shell]
      exact ⟨f, hf, ofField_of_check hkinds hchoices hcheck hget
        (Check.problems_positive_eq_error_iff.2 ⟨hn, h, rfl⟩)⟩
  cases hvalidate : validate table t (.shell historyFile) with
  | error fault => rw [(of_validate_shell_eq_error hvalidate).1]
  | ok result =>
    obtain ⟨first, hfirst, -⟩ := exists_ofField_of_validate hvalidate hf
    rw [herror] at hfirst
    cases hfirst

/-! ## Files -/

namespace Disk

variable {d : Disk} {path : String}

/-- Looking for something fails only with a trouble that does not mean that nothing is there. -/
theorem exists?_eq_error_iff :
    d.exists? path = .error fault ↔
      admissible path = true ∧ ∃ trouble, d.seek path = .error trouble ∧
        trouble.isAbsence = false ∧ fault = .file ⟨trouble, some path⟩ := by
  rw [exists?]
  split_ifs with hpath
  · cases d.seek path with
    | ok found => simp
    | error trouble =>
      cases habsence : trouble.isAbsence with
      | true => simp [habsence]
      | false => simp [hpath, habsence, eq_comm (a := fault)]
  · simp [hpath]

theorem exists?_eq_true_iff :
    d.exists? path = .ok true ↔
      admissible path = true ∧ ∃ place entry, d.seek path = .ok (place, some entry) := by
  rw [exists?]
  split_ifs with hpath
  · cases d.seek path with
    | ok found =>
      obtain ⟨place, entry⟩ := found
      cases entry <;> simp [hpath]
    | error trouble =>
      dsimp only
      split_ifs <;> simp
  · simp [hpath]

/-- What is there can be opened if the system grants it, unless it is a directory. -/
theorem openForReading_eq (hpath : admissible path = true) {place : Place} {entry : Entry}
    (hseek : d.seek path = .ok (place, some entry)) :
    d.openForReading path =
      match d.grant place .read with
      | .error trouble => .error (.file ⟨trouble, some path⟩)
      | .ok () =>
        if entry = .directory then .error (.file ⟨.isDirectory, some path⟩) else .ok place := by
  rw [openForReading, onPath, if_pos hpath, hseek]
  change Except.mapError _ (d.grant place .read >>= _) = _
  cases d.grant place .read with
  | error trouble => rfl
  | ok granted => cases entry <;> rfl

theorem exists?_of_openForReading {place : Place} (h : d.openForReading path = .ok place) :
    d.exists? path = .ok true := by
  rw [openForReading, onPath] at h
  split_ifs at h with hpath
  refine exists?_eq_true_iff.2 ⟨hpath, ?_⟩
  cases hseek : d.seek path with
  | error trouble =>
    rw [hseek] at h
    cases h
  | ok found =>
    obtain ⟨place', entry⟩ := found
    cases entry with
    | none =>
      rw [hseek] at h
      cases h
    | some entry => exact ⟨place', entry, rfl⟩

/-- A file that was opened is read, unless the system stops it before its end. -/
theorem read_of_openForReading {place : Place} {octets : List UInt8} {flaw : Option FileTrouble}
    (h : d.openForReading path = .ok place) (hstream : d.stream place = (octets, flaw)) :
    d.read path = flaw.elim (.ok octets) fun trouble => .error (.file ⟨trouble, none⟩) := by
  rw [read, h]
  dsimp only
  rw [hstream]
  cases flaw <;> rfl

theorem exists?_of_read {octets : List UInt8} (h : d.read path = .ok octets) :
    d.exists? path = .ok true := by
  rw [read] at h
  cases hopen : d.openForReading path with
  | error other =>
    rw [hopen] at h
    cases h
  | ok place => exact exists?_of_openForReading hopen

theorem isAbort_read (h : d.read path = .error fault) : fault.isAbort = false := by
  cases hopen : d.openForReading path with
  | error other =>
    rw [read, hopen] at h
    cases h
    exact isAbort_onPath hopen
  | ok place =>
    cases hstream : d.stream place with
    | mk octets flaw =>
      rw [read_of_openForReading hopen hstream] at h
      cases flaw with
      | none => cases h
      | some trouble =>
        cases h
        rfl

end Disk

theorem Environment.isAbort_expandHome {env : Environment} {path : String}
    (h : env.expandHome path = .error fault) : fault.isAbort = false := by
  unfold expandHome at h
  split at h
  next first rest _ _ =>
    split at h
    next name _ =>
      split_ifs at h
      · cases h
        rfl
      · split at h
        next =>
          cases h
          rfl
        next home _ =>
          split_ifs at h
          cases h
          rfl
    next => cases h
  next => cases h

namespace Settings

variable {channel : String} {loaded : Loaded} {disk : Disk} {env : Environment} {path : String}

/-- The path of the settings file: the one that the user names, or the default one. -/
def pathOf (env : Environment) (path : String) : Except Fault String :=
  if path.isEmpty then .ok env.locations.settingsFile else expandPath env path

theorem value_ofFile (channel : String) (schema : Schema) (disk : Disk) (path : String) :
    (ofFile channel schema disk path).value =
      disk.read path >>= fun octets => (ofOctets channel schema path octets).value := by
  rw [ofFile, Noted.value_bind]
  cases disk.read path with
  | error fault => rfl
  | ok octets => rfl

/-- What `load` answers, without its notes. -/
theorem value_load (channel : String) (disk : Disk) (env : Environment) (path : String) :
    (load channel disk env path).value =
      pathOf env path >>= fun p => disk.exists? p >>= fun there =>
        if there then (ofFile channel (schemaIn env) disk p).value
        else if path.isEmpty then (ofDocument channel (schemaIn env) []).value
        else .error (.abort "") := by
  rw [load, pathOf]
  by_cases hpath : path.isEmpty
  · simp only [if_pos hpath]
    unfold loadDefault
    dsimp only [bind, Except.bind]
    cases disk.exists? env.locations.settingsFile with
    | error fault => rfl
    | ok there => cases there <;> rfl
  · simp only [if_neg hpath]
    unfold loadNamed
    cases expandPath env path with
    | error fault => rfl
    | ok p =>
      dsimp only [bind, Except.bind]
      cases disk.exists? p with
      | error fault => rfl
      | ok there => cases there <;> rfl

theorem isAbort_pathOf (h : pathOf env path = .error fault) : fault.isAbort = false := by
  rw [pathOf] at h
  split_ifs at h
  exact Environment.isAbort_expandHome h

theorem value_ofSection (channel : String) (schema : Schema) (t : Table) :
    (ofSection channel schema t).value = (validate sectionName t schema).map fun result =>
      ⟨ofTable (accepted t result) schema, result.errors⟩ := by
  unfold ofSection
  cases validate sectionName t schema with
  | error fault => rfl
  | ok result => rfl

/-! ## Causes that are not expected -/

/-- Octets that loading is not prepared for: they are not UTF-8, they hold a decimal integer with
more digits than are converted, or an integer that has to be shown is too long for that. -/
inductive Spoils (octets : List UInt8) : Fault → Prop
  | undecodable (h : Text.decodeStrict? octets = none) : Spoils octets .undecodable
  | digits {text : List Char} {n : Nat} (htext : Text.decodeStrict? octets = some text)
    (h : Document.read text = .error (.tooManyDigits n)) : Spoils octets (.digitLimit n)
  | overlong {text : List Char} {document t : Table}
    (htext : Text.decodeStrict? octets = some text) (hread : Document.read text = .ok document)
    (hsection : document.get? sectionName = some (.table t)) (h : Overlong t) :
    Spoils octets .unshowable

/-- The ways in which loading ends with a cause that is not expected.  The home at which the path
starts is not known, or has NUL in its name; the system refuses to look at what is there; it
refuses to read it; a directory is there; the file cannot be read to its end; or its octets are
spoilt. -/
inductive Escapes (disk : Disk) (env : Environment) (path : String) : Fault → Prop
  | home {fault : Fault} (h : pathOf env path = .error fault) : Escapes disk env path fault
  | unseen {p : String} {trouble : FileTrouble} (hp : pathOf env path = .ok p)
    (hnul : Disk.admissible p = true) (h : disk.seek p = .error trouble)
    (habsence : trouble.isAbsence = false) : Escapes disk env path (.file ⟨trouble, some p⟩)
  | unreadable {p : String} {place : Place} {entry : Entry} {trouble : FileTrouble}
    (hp : pathOf env path = .ok p) (hnul : Disk.admissible p = true)
    (hseek : disk.seek p = .ok (place, some entry))
    (h : disk.grant place .read = .error trouble) : Escapes disk env path (.file ⟨trouble, some p⟩)
  | directory {p : String} {place : Place} (hp : pathOf env path = .ok p)
    (hnul : Disk.admissible p = true) (hgrant : disk.grant place .read = .ok ())
    (h : disk.seek p = .ok (place, some .directory)) :
    Escapes disk env path (.file ⟨.isDirectory, some p⟩)
  | flawed {p : String} {place : Place} {octets : List UInt8} {trouble : FileTrouble}
    (hp : pathOf env path = .ok p) (hopen : disk.openForReading p = .ok place)
    (h : disk.stream place = (octets, some trouble)) : Escapes disk env path (.file ⟨trouble, none⟩)
  | contents {p : String} {octets : List UInt8} {fault : Fault} (hp : pathOf env path = .ok p)
    (hread : disk.read p = .ok octets) (h : Spoils octets fault) : Escapes disk env path fault

theorem ofDocument_eq_error_iff {document : Table} (hfault : fault.isAbort = false) :
    (ofDocument channel (.shell historyFile) document).value = .error fault ↔
      fault = .unshowable ∧ ∃ t, document.get? sectionName = some (.table t) ∧ Overlong t := by
  have hsection : ∀ t, (ofSection channel (.shell historyFile) t).value = .error fault ↔
      fault = .unshowable ∧ Overlong t := by
    intro t
    rw [value_ofSection, ← validate_shell_eq_error_iff sectionName t historyFile]
    cases validate sectionName t (.shell historyFile) <;> simp [Except.map]
  rw [ofDocument]
  split
  next hnone =>
    rw [hsection, hnone]
    refine and_congr_right fun _ => ⟨fun h => ?_, ?_⟩
    · cases h with
      | level hget => cases hget
      | limit _ hget => cases hget
    · rintro ⟨t, ht, -⟩
      cases ht
  next t ht =>
    rw [hsection, ht]
    simp
  next v hother hv =>
    constructor
    · intro h
      cases h
      cases hfault
    · rintro ⟨-, t, ht, -⟩
      rw [hv, Option.some.injEq] at ht
      exact absurd ht (hother t)

/-- Spoilt octets end the loading. -/
theorem Spoils.value_ofOctets {octets : List UInt8} (h : Spoils octets fault)
    (channel historyFile path : String) :
    (ofOctets channel (.shell historyFile) path octets).value = .error fault := by
  cases h with
  | undecodable h =>
    rw [ofOctets, h]
    rfl
  | digits htext h =>
    rw [ofOctets, htext]
    dsimp only
    rw [h]
    rfl
  | overlong htext hread hsection h =>
    rw [ofOctets, htext]
    dsimp only
    rw [hread]
    exact (ofDocument_eq_error_iff rfl).2 ⟨rfl, _, hsection, h⟩

/-- Other octets do not, unless it is given up. -/
theorem spoils_of_ofOctets {octets : List UInt8} (hfault : fault.isAbort = false)
    (h : (ofOctets channel (.shell historyFile) path octets).value = .error fault) :
    Spoils octets fault := by
  rw [ofOctets] at h
  cases htext : Text.decodeStrict? octets with
  | none =>
    rw [htext] at h
    cases h
    exact .undecodable htext
  | some text =>
    rw [htext] at h
    dsimp only at h
    cases hread : Document.read text with
    | ok document =>
      rw [hread] at h
      obtain ⟨rfl, t, hsection, hlong⟩ := (ofDocument_eq_error_iff hfault).1 h
      exact .overlong htext hread hsection hlong
    | error flaw =>
      rw [hread] at h
      cases flaw with
      | malformed =>
        cases h
        cases hfault
      | tooManyDigits n =>
        cases h
        exact .digits htext hread

/-- What is at the path is read, if anything is. -/
theorem value_load_of_exists {p : String} (hp : pathOf env path = .ok p)
    (hexists : disk.exists? p = .ok true) (channel : String) :
    (load channel disk env path).value =
      disk.read p >>= fun octets => (ofOctets channel (schemaIn env) p octets).value := by
  rw [value_load, hp]
  change (disk.exists? p >>= _) = _
  rw [hexists, ← value_ofFile]
  rfl

theorem Escapes.value_load (h : Escapes disk env path fault) (channel : String) :
    (load channel disk env path).value = .error fault := by
  cases h with
  | home h =>
    rw [Settings.value_load, h]
    rfl
  | unseen hp hnul h habsence =>
    have hexists := Disk.exists?_eq_error_iff.2 ⟨hnul, _, h, habsence, rfl⟩
    rw [Settings.value_load, hp]
    exact bind_eq_error.2 (.inr ⟨_, rfl, bind_eq_error.2 (.inl hexists)⟩)
  | unreadable hp hnul hseek h =>
    have hopen := Disk.openForReading_eq hnul hseek
    rw [h] at hopen
    rw [value_load_of_exists hp (Disk.exists?_eq_true_iff.2 ⟨hnul, _, _, hseek⟩), Disk.read, hopen]
    rfl
  | directory hp hnul hgrant h =>
    have hopen := Disk.openForReading_eq hnul h
    rw [hgrant] at hopen
    rw [value_load_of_exists hp (Disk.exists?_eq_true_iff.2 ⟨hnul, _, _, h⟩), Disk.read, hopen]
    rfl
  | flawed hp hopen h =>
    rw [value_load_of_exists hp (Disk.exists?_of_openForReading hopen),
      Disk.read_of_openForReading hopen h]
    rfl
  | contents hp hread h =>
    rw [value_load_of_exists hp (Disk.exists?_of_read hread), hread]
    exact h.value_ofOctets channel _ _

theorem Escapes.isAbort (h : Escapes disk env path fault) : fault.isAbort = false := by
  cases h with
  | home h => exact isAbort_pathOf h
  | contents hp hread h => cases h <;> rfl
  | _ => rfl

/-- A file that is there but cannot be read. -/
theorem escapes_of_read {p : String} (hp : pathOf env path = .ok p)
    (hexists : disk.exists? p = .ok true) (h : disk.read p = .error fault) :
    Escapes disk env path fault := by
  obtain ⟨hnul, place, entry, hseek⟩ := Disk.exists?_eq_true_iff.1 hexists
  have hopen := Disk.openForReading_eq hnul hseek
  cases hgrant : disk.grant place .read with
  | error trouble =>
    rw [hgrant] at hopen
    rw [Disk.read, hopen] at h
    cases h
    exact .unreadable hp hnul hseek hgrant
  | ok granted =>
    rw [hgrant] at hopen
    dsimp only at hopen
    split_ifs at hopen with hdirectory
    · rw [Disk.read, hopen] at h
      cases h
      exact .directory hp hnul hgrant (hdirectory ▸ hseek)
    · cases hstream : disk.stream place with
      | mk octets flaw =>
        rw [Disk.read_of_openForReading hopen hstream] at h
        cases flaw with
        | none => cases h
        | some trouble =>
          cases h
          exact .flawed hp hopen hstream

theorem escapes_of_load (hfault : fault.isAbort = false)
    (h : (load channel disk env path).value = .error fault) : Escapes disk env path fault := by
  rw [value_load] at h
  obtain hp | ⟨p, hp, h⟩ := bind_eq_error.1 h
  · exact .home hp
  obtain hexists | ⟨there, hexists, h⟩ := bind_eq_error.1 h
  · obtain ⟨hnul, trouble, hseek, habsence, rfl⟩ := Disk.exists?_eq_error_iff.1 hexists
    exact .unseen hp hnul hseek habsence
  split_ifs at h with hthere hpath
  · subst hthere
    rw [value_ofFile] at h
    obtain hread | ⟨octets, hread, h⟩ := bind_eq_error.1 h
    · exact escapes_of_read hp hexists hread
    · exact .contents hp hread (spoils_of_ofOctets hfault h)
  · obtain ⟨-, t, ht, -⟩ := (ofDocument_eq_error_iff hfault).1 h
    cases ht
  · cases h
    cases hfault

/-! ## Giving up -/

/-- Where it is given up, a note tells why. -/
def Explained (channel : String) (answer : Noted (Except Fault Loaded)) : Prop :=
  ∀ fault, answer.value = .error fault → fault.isAbort = true →
    fault = .abort "" ∧ ∃ note ∈ answer.notes, note.channel = channel ∧ note.level = Level.critical

theorem explained_giveUp (channel message : String) :
    Explained channel (giveUp channel message) := by
  rintro fault h -
  cases h
  exact ⟨rfl, _, List.mem_append_left _ List.mem_cons_self, rfl, rfl⟩

theorem explained_error (hfault : fault.isAbort = false) :
    Explained channel (return .error fault) := by
  intro other h habort
  cases h
  rw [hfault] at habort
  cases habort

theorem Explained.say {answer : Noted (Except Fault Loaded)} (h : Explained channel answer)
    (level : Int) (message : String) :
    Explained channel (do Noted.say channel level message; answer) := by
  intro fault hvalue habort
  obtain ⟨rfl, note, hnote, hcritical⟩ := h fault hvalue habort
  exact ⟨rfl, note, List.mem_append_right _ hnote, hcritical⟩

theorem explained_ofSection (channel historyFile : String) (t : Table) :
    Explained channel (ofSection channel (.shell historyFile) t) := by
  intro fault h habort
  rw [value_ofSection] at h
  cases hvalidate : validate sectionName t (.shell historyFile) with
  | error other =>
    rw [hvalidate] at h
    cases h
    rw [(of_validate_shell_eq_error hvalidate).1] at habort
    cases habort
  | ok result =>
    rw [hvalidate] at h
    cases h

theorem explained_ofDocument (channel historyFile : String) (document : Table) :
    Explained channel (ofDocument channel (.shell historyFile) document) := by
  rw [ofDocument]
  split
  next => exact explained_ofSection channel historyFile []
  next t _ => exact explained_ofSection channel historyFile t
  next => exact explained_giveUp channel _

theorem explained_ofFile (channel historyFile : String) (disk : Disk) (path : String) :
    Explained channel (ofFile channel (.shell historyFile) disk path) := by
  unfold ofFile
  refine Explained.say ?_ Level.info _
  cases hread : disk.read path with
  | error fault => exact explained_error (Disk.isAbort_read hread)
  | ok octets =>
    dsimp only
    unfold ofOctets
    split
    next => exact explained_error rfl
    next text _ =>
      split
      next document _ => exact explained_ofDocument channel historyFile document
      next => exact explained_giveUp channel _
      next => exact explained_error rfl

/-- **Whoever gives up the loading tells why.** -/
theorem explained_load (channel : String) (disk : Disk) (env : Environment) (path : String) :
    Explained channel (load channel disk env path) := by
  have hexists : ∀ {p fault}, disk.exists? p = .error fault → fault.isAbort = false := by
    intro p fault h
    obtain ⟨-, trouble, -, -, rfl⟩ := Disk.exists?_eq_error_iff.1 h
    rfl
  unfold load
  split_ifs
  · unfold loadDefault
    dsimp only
    cases hdefault : disk.exists? env.locations.settingsFile with
    | error fault => exact explained_error (hexists hdefault)
    | ok there =>
      cases there with
      | true => exact explained_ofFile channel _ disk _
      | false => exact (explained_ofDocument channel _ []).say Level.debug _
  · unfold loadNamed
    cases hexpand : expandPath env path with
    | error fault => exact explained_error (Environment.isAbort_expandHome hexpand)
    | ok p =>
      dsimp only
      cases hnamed : disk.exists? p with
      | error fault => exact explained_error (hexists hnamed)
      | ok there =>
        cases there with
        | true => exact explained_ofFile channel _ disk p
        | false => exact explained_giveUp channel _

/-! ## The table of settings -/

/-- The table of settings that a path leads to.  It is empty if no file is named and there is none
at the default path, and if the document of the file has no such table. -/
inductive Holds (disk : Disk) (env : Environment) (path : String) : Table → Prop
  | absent (hpath : path.isEmpty = true)
    (h : disk.exists? env.locations.settingsFile = .ok false) : Holds disk env path []
  | without {p : String} {octets : List UInt8} {text : List Char} {document : Table}
    (hp : pathOf env path = .ok p) (hread : disk.read p = .ok octets)
    (htext : Text.decodeStrict? octets = some text) (hdocument : Document.read text = .ok document)
    (h : document.get? sectionName = none) : Holds disk env path []
  | within {p : String} {octets : List UInt8} {text : List Char} {document t : Table}
    (hp : pathOf env path = .ok p) (hread : disk.read p = .ok octets)
    (htext : Text.decodeStrict? octets = some text) (hdocument : Document.read text = .ok document)
    (h : document.get? sectionName = some (.table t)) : Holds disk env path t

theorem value_ofOctets {octets : List UInt8} {text : List Char} {document : Table} {p : String}
    {schema : Schema} (htext : Text.decodeStrict? octets = some text)
    (hdocument : Document.read text = .ok document) :
    (ofOctets channel schema p octets).value = (ofDocument channel schema document).value := by
  rw [ofOctets, htext]
  dsimp only
  rw [hdocument]

/-- Loading is the validation of the table that the path leads to. -/
theorem Holds.value_load (h : Holds disk env path t) (channel : String) :
    (load channel disk env path).value = (ofSection channel (schemaIn env) t).value := by
  cases h with
  | absent hpath h =>
    rw [Settings.value_load, pathOf, if_pos hpath]
    dsimp only [bind, Except.bind]
    rw [h]
    dsimp only
    rw [if_neg Bool.false_ne_true, if_pos hpath]
    rfl
  | without hp hread htext hdocument h =>
    rw [value_load_of_exists hp (Disk.exists?_of_read hread), hread]
    change (ofOctets channel _ _ _).value = _
    rw [value_ofOctets htext hdocument, ofDocument, h]
  | within hp hread htext hdocument h =>
    rw [value_load_of_exists hp (Disk.exists?_of_read hread), hread]
    change (ofOctets channel _ _ _).value = _
    rw [value_ofOctets htext hdocument, ofDocument, h]

theorem exists_holds_of_ofDocument {p : String} {octets : List UInt8} {text : List Char}
    {document : Table} (hp : pathOf env path = .ok p) (hread : disk.read p = .ok octets)
    (htext : Text.decodeStrict? octets = some text) (hdocument : Document.read text = .ok document)
    (h : (ofDocument channel (schemaIn env) document).value = .ok loaded) :
    ∃ t, Holds disk env path t := by
  rw [ofDocument] at h
  split at h
  next hnone => exact ⟨[], .without hp hread htext hdocument hnone⟩
  next t ht => exact ⟨t, .within hp hread htext hdocument ht⟩
  next => cases h

/-- Settings that were loaded are those of a table. -/
theorem exists_holds_of_load (h : (load channel disk env path).value = .ok loaded) :
    ∃ t, Holds disk env path t := by
  rw [value_load] at h
  obtain ⟨p, hp, h⟩ := bind_eq_ok.1 h
  obtain ⟨there, hexists, h⟩ := bind_eq_ok.1 h
  split_ifs at h with hthere hpath
  · rw [value_ofFile] at h
    obtain ⟨octets, hread, h⟩ := bind_eq_ok.1 h
    rw [ofOctets] at h
    split at h
    next => cases h
    next text htext =>
      split at h
      next document hdocument => exact exists_holds_of_ofDocument hp hread htext hdocument h
      next => cases h
      next => cases h
  · rw [pathOf, if_pos hpath] at hp
    cases hp
    rw [Bool.not_eq_true] at hthere
    exact ⟨[], .absent hpath (hthere ▸ hexists)⟩

theorem Holds.solid (h : Holds disk env path t) : t.Solid := by
  cases h with
  | absent => exact .nil
  | without => exact .nil
  | within _ _ _ hdocument h => exact ((Document.solid_read hdocument).of_get? h).entries

/-- **The settings of a file pass validation,** whatever octets it holds. -/
theorem passing_load (h : (load channel disk env path).value = .ok loaded) :
    loaded.settings.Passing env.locations.historyFile := by
  obtain ⟨t, ht⟩ := exists_holds_of_load h
  rw [ht.value_load] at h
  exact passing_ofSection ht.solid h

end Settings

end CommandShell
