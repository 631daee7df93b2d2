import CommandShell.Proofs.Settings.Loading

/-!
# Refused values

A field refuses a value for one of three reasons: it is of none of its kinds, it is none of the
listed choices, or the further demand finds a problem with it.  Validation names exactly the
fields that refuse what a table gives them, and loading puts the schema's value in their place.
Where a problem is found but cannot be put into words, validation has no answer at all.
-/

namespace CommandShell

/-- A value is of a kind.  A truth value is of no other kind than its own, while a text may be a
word that switches something on or off, in letters of either case. -/
inductive Kind.Fits : Kind → Value → Prop
  | text (s : String) : Fits .text (.text s)
  | integer (n : Int) : Fits .integer (.int n)
  | truth (b : Bool) : Fits .switch (.bool b)
  | word {s : String} (h : Value.lower s ∈ Value.onWords ++ Value.offWords) :
    Fits .switch (.text s)
  | number (x : Float) : Fits .number (.float x)
  | list (items : List Value) : Fits .list (.list items)
  | table (entries : Table) : Fits .table (.table entries)

theorem Kind.admits_iff {k : Kind} {v : Value} : k.admits v = true ↔ k.Fits v := by
  constructor
  · intro h
    unfold admits at h
    split at h
    · exact .text _
    · exact .integer _
    · exact .truth _
    · exact .word (List.contains_iff_mem.1 h)
    · exact .number _
    · exact .list _
    · exact .table _
    · cases h
  · intro h
    cases h with
    | word h => exact List.contains_iff_mem.2 h
    | _ => rfl

/-! ## One value -/

namespace Field

/-- The field refuses the value: it is of none of the kinds, it is none of the choices that are
listed, or the further demand finds problems. -/
inductive Refuses (f : Field) (v : Value) : Prop
  | kind (h : ∀ k ∈ f.kinds, ¬ k.Fits v) : Refuses f v
  | choice {choices : List Value} (hchoices : f.choices = some choices)
    (h : ∀ c ∈ choices, v.same c = false) : Refuses f v
  | check {check : Check} {problems : List String} (hcheck : f.check = some check)
    (hproblems : check.problems v = .ok problems) (h : problems ≠ []) : Refuses f v

/-- The value is of one of the kinds, but what is wrong with it cannot be told: it is none of the
listed choices, and it or one of these cannot be shown; or the further demand fails. -/
inductive Baffled (f : Field) (v : Value) : Prop
  | choice {k : Kind} {choices : List Value} (hk : k ∈ f.kinds) (hfits : k.Fits v)
    (hchoices : f.choices = some choices) (h : ∀ c ∈ choices, v.same c = false)
    (hshown : ∃ w ∈ v :: choices, w.isShowable = false) : Baffled f v
  | check {k : Kind} {check : Check} {fault : Fault} (hk : k ∈ f.kinds) (hfits : k.Fits v)
    (hcheck : f.check = some check) (h : check.problems v = .error fault) : Baffled f v

variable {f : Field} {v : Value} {table : String}

theorem admits_iff : f.admits v = true ↔ ∃ k ∈ f.kinds, k.Fits v := by
  simp only [admits, List.any_eq_true, Kind.admits_iff]

theorem isChoice_eq_false_iff :
    f.isChoice v = false ↔
      ∃ choices, f.choices = some choices ∧ ∀ c ∈ choices, v.same c = false := by
  unfold isChoice
  cases f.choices <;> simp

/-- A field has no answer about a value exactly if it is baffled by it. -/
theorem baffled_iff (table : String) :
    f.Baffled v ↔ ∃ fault, f.problems table v = .error fault := by
  constructor
  · intro h
    cases h with
    | choice hk hfits hchoices hnone hshown =>
      refine ⟨.unshowable, problems_eq_error_iff.2 ⟨admits_iff.2 ⟨_, hk, hfits⟩, .inl ?_⟩⟩
      refine choiceProblems_eq_error_iff.2 ⟨isChoice_eq_false_iff.2 ⟨_, hchoices, hnone⟩, ?_, rfl⟩
      rw [hchoices]
      exact List.all_eq_false.2 (by simpa using hshown)
    | @check k check fault hk hfits hcheck herror =>
      have hadmits := admits_iff.2 ⟨k, hk, hfits⟩
      have hfails : f.checkProblems table v = .error fault :=
        checkProblems_eq_error_iff.2 ⟨check, hcheck, herror⟩
      -- The choices are looked at first, and may fail as well.
      cases hchoice : f.choiceProblems table v with
      | error other => exact ⟨other, problems_eq_error_iff.2 ⟨hadmits, .inl hchoice⟩⟩
      | ok first =>
        exact ⟨fault, problems_eq_error_iff.2 ⟨hadmits, .inr ⟨⟨first, hchoice⟩, hfails⟩⟩⟩
  · rintro ⟨fault, h⟩
    obtain ⟨hadmits, h⟩ := problems_eq_error_iff.1 h
    obtain ⟨k, hk, hfits⟩ := admits_iff.1 hadmits
    obtain hchoice | ⟨-, hcheck⟩ := h
    · obtain ⟨hchosen, hshown, -⟩ := choiceProblems_eq_error_iff.1 hchoice
      obtain ⟨choices, hchoices, hnone⟩ := isChoice_eq_false_iff.1 hchosen
      rw [hchoices] at hshown
      exact .choice hk hfits hchoices hnone (by simpa using List.all_eq_false.1 hshown)
    · obtain ⟨check, hsome, herror⟩ := checkProblems_eq_error_iff.1 hcheck
      exact .check hk hfits hsome herror

/-- A field that has an answer about a value refuses it exactly if it finds a problem. -/
theorem refuses_iff {errors : List String} (h : f.problems table v = .ok errors) :
    f.Refuses v ↔ errors ≠ [] := by
  have hnil : errors = [] ↔ f.Passes v := by
    rw [← problems_eq_nil_iff table, h, Except.ok.injEq]
  rw [Ne, hnil]
  constructor
  · intro hrefuses hpasses
    cases hrefuses with
    | kind hnone =>
      obtain ⟨k, hk, hfits⟩ := admits_iff.1 hpasses.admits
      exact hnone k hk hfits
    | choice hchoices hnone =>
      have hchosen := isChoice_eq_false_iff.2 ⟨_, hchoices, hnone⟩
      rw [hpasses.isChoice] at hchosen
      cases hchosen
    | check hcheck hproblems hne =>
      rw [hpasses.check _ hcheck] at hproblems
      exact hne (Except.ok.inj hproblems).symm
  · intro hpasses
    by_cases hadmits : ∃ k ∈ f.kinds, k.Fits v
    · obtain ⟨k, hk, hfits⟩ := hadmits
      cases hchosen : f.isChoice v with
      | false =>
        obtain ⟨choices, hchoices, hnone⟩ := isChoice_eq_false_iff.1 hchosen
        exact .choice hchoices hnone
      | true =>
        obtain ⟨check, hcheck, hfound⟩ :
            ∃ check, f.check = some check ∧ check.problems v ≠ .ok [] := by
          by_contra hnone
          push Not at hnone
          exact hpasses ⟨admits_iff.2 ⟨k, hk, hfits⟩, hchosen, hnone⟩
        cases hproblems : check.problems v with
        | error fault =>
          obtain ⟨other, herror⟩ := (baffled_iff table).1 (.check hk hfits hcheck hproblems)
          rw [h] at herror
          cases herror
        | ok problems => exact .check hcheck hproblems fun hnone => hfound (hnone ▸ hproblems)
    · push Not at hadmits
      exact .kind hadmits

end Field

/-! ## A table -/

variable {table : String} {t : Table} {schema : Schema} {f : Field} {result : Validation}

/-- Validation has no answer exactly if a field is baffled by what the table gives it. -/
theorem validate_eq_error_iff (table : String) (t : Table) (schema : Schema) :
    (∃ fault, validate table t schema = .error fault) ↔
      ∃ f ∈ schema, ∃ v, t.given? f.name = some v ∧ f.Baffled v := by
  constructor
  · rintro ⟨fault, h⟩
    obtain ⟨f, hf, herror⟩ := exists_of_validate_eq_error h
    obtain ⟨v, hgiven, hproblems⟩ := Validation.ofField_eq_error_iff.1 herror
    exact ⟨f, hf, v, hgiven, (Field.baffled_iff table).2 ⟨fault, hproblems⟩⟩
  · rintro ⟨f, hf, v, hgiven, hbaffled⟩
    obtain ⟨fault, hproblems⟩ := (Field.baffled_iff table).1 hbaffled
    have herror := Validation.ofField_eq_error_iff.2 ⟨v, hgiven, hproblems⟩
    cases hvalidate : validate table t schema with
    | error other => exact ⟨other, rfl⟩
    | ok result =>
      obtain ⟨first, hfirst, -⟩ := exists_ofField_of_validate hvalidate hf
      rw [herror] at hfirst
      cases hfirst

namespace Validation

theorem mem_invalid_ofField {first : Validation} (h : ofField table t f = .ok first)
    {name : String} :
    name ∈ first.invalid ↔ name = f.name ∧ ∃ v, t.given? f.name = some v ∧ f.Refuses v := by
  rw [ofField] at h
  cases hgiven : t.given? f.name with
  | none =>
    rw [hgiven] at h
    cases h
    simp
  | some v =>
    rw [hgiven] at h
    obtain ⟨errors, herrors, hfirst⟩ := bind_eq_ok.1 h
    cases hfirst
    simp only [Option.some.injEq, exists_eq_left', Field.refuses_iff herrors]
    cases errors <;> simp

theorem errors_ofField_eq_nil_iff {first : Validation} (h : ofField table t f = .ok first) :
    first.errors = [] ↔ first.invalid = [] := by
  rw [ofField] at h
  split at h
  next => cases h; simp
  next v hgiven =>
    obtain ⟨errors, -, hfirst⟩ := bind_eq_ok.1 h
    cases hfirst
    cases errors <;> simp

end Validation

/-- A name is answered with exactly if a field of this name refuses what the table gives it. -/
theorem mem_invalid_iff (h : validate table t schema = .ok result) {name : String} :
    name ∈ result.invalid ↔
      ∃ f ∈ schema, f.name = name ∧ ∃ v, t.given? name = some v ∧ f.Refuses v := by
  induction schema generalizing result with
  | nil =>
    cases h
    simp
  | cons g rest ih =>
    rw [validate, bind_eq_ok] at h
    obtain ⟨first, hfirst, h⟩ := h
    obtain ⟨others, hothers, h⟩ := bind_eq_ok.1 h
    cases h
    rw [List.mem_append, Validation.mem_invalid_ofField hfirst, ih hothers,
      List.exists_mem_cons_iff]
    refine or_congr_left ⟨?_, ?_⟩ <;>
    · rintro ⟨rfl, hrefused⟩
      exact ⟨rfl, hrefused⟩

/-- There are errors exactly if a field has one. -/
theorem errors_eq_nil_iff (h : validate table t schema = .ok result) :
    result.errors = [] ↔ result.invalid = [] := by
  induction schema generalizing result with
  | nil =>
    cases h
    simp
  | cons g rest ih =>
    rw [validate, bind_eq_ok] at h
    obtain ⟨first, hfirst, h⟩ := h
    obtain ⟨others, hothers, h⟩ := bind_eq_ok.1 h
    cases h
    rw [List.append_eq_nil_iff, List.append_eq_nil_iff,
      Validation.errors_ofField_eq_nil_iff hfirst, ih hothers]

/-- Under distinct names, a field is named exactly if it refuses what the table gives it. -/
theorem name_mem_invalid_iff (hnodup : (schema.map Field.name).Nodup)
    (h : validate table t schema = .ok result) (hf : f ∈ schema) :
    f.name ∈ result.invalid ↔ ∃ v, t.given? f.name = some v ∧ f.Refuses v := by
  rw [mem_invalid_iff h]
  constructor
  · rintro ⟨g, hg, hname, hrefused⟩
    obtain rfl : g = f := List.inj_on_of_nodup_map hnodup hg hf hname
    exact hrefused
  · intro hrefused
    exact ⟨f, hf, rfl, hrefused⟩

/-! ## Loaded settings -/

namespace Settings

/-- The settings yield what a table gives for a field unless the field is among the invalid ones,
the schema's value if there is nothing else, and what the table gives for any other name. -/
structure Reflects (schema : Schema) (settings : Settings) (t : Table) (invalid : List String) :
    Prop where
  known : ∀ f ∈ schema, settings.get f.name =
    if f.name ∈ invalid then f.fallback else (t.get? f.name).getD f.fallback
  unknown : ∀ name, name ∉ schema.map Field.name →
    ∀ other, settings.get name other = (t.get? name).getD other

/-- What validation leaves of a table reflects it, if every field has a value of its own. -/
theorem reflects_ofTable (hnodup : (schema.map Field.name).Nodup)
    (hfallbacks : ∀ f ∈ schema, f.fallback ≠ .null)
    (h : validate table t schema = .ok result) :
    (ofTable (accepted t result) schema).Reflects schema t result.invalid where
  known := by
    intro f hf
    rw [get, ofTable, get?_accepted, Schema.get?_fallbacks hnodup hf (hfallbacks f hf)]
    split_ifs
    · rfl
    · cases t.get? f.name <;> rfl
  unknown := by
    intro name hname other
    have hvalid : name ∉ result.invalid := by
      rw [mem_invalid_iff h]
      rintro ⟨f, hf, rfl, -⟩
      exact hname (List.mem_map_of_mem hf)
    have hfallback : schema.fallbacks.get? name = none := by
      rw [Table.get?, Option.map_eq_none_iff, List.find?_eq_none]
      intro e he heq
      refine hname (schema.names_fallbacks.subset ?_)
      exact List.mem_map.2 ⟨e, List.mem_reverse.1 he, beq_iff_eq.1 heq⟩
    rw [get, ofTable, get?_accepted, if_neg hvalid, hfallback]
    cases t.get? name <;> rfl

end Settings

/-- **Refused values fall back.**  Validation has no answer exactly if a field is baffled by the
value that the table gives it.  Otherwise it names exactly the fields that refuse theirs, and
finds errors exactly if it names one.  What is loaded from a file comes from the table of settings
in it; it yields this table's values, but the schema's for the fields that were named, and keeps
all others. -/
theorem refused_values_fall_back (table : String) (t : Table) (schema : Schema)
    (hnodup : (schema.map Field.name).Nodup) :
    ((∃ fault, validate table t schema = .error fault) ↔
      ∃ f ∈ schema, ∃ v, t.get? f.name = some v ∧ v ≠ .null ∧ f.Baffled v) ∧
    (∀ result, validate table t schema = .ok result →
      (∀ f ∈ schema, f.name ∈ result.invalid ↔
        ∃ v, t.get? f.name = some v ∧ v ≠ .null ∧ f.Refuses v) ∧
      (∀ name ∈ result.invalid, name ∈ schema.map Field.name) ∧
      (result.errors = [] ↔ result.invalid = [])) ∧
    ∀ (channel : String) (disk : Disk) (env : Environment) (path : String),
      (∀ loaded, (Settings.load channel disk env path).value = .ok loaded →
        ∃ held, Settings.Holds disk env path held) ∧
      ∀ held, Settings.Holds disk env path held →
        (∀ fault, validate Settings.sectionName held (Settings.schemaIn env) = .error fault →
          (Settings.load channel disk env path).value = .error fault) ∧
        ∀ result, validate Settings.sectionName held (Settings.schemaIn env) = .ok result →
          ∃ loaded, (Settings.load channel disk env path).value = .ok loaded ∧
            loaded.errors = result.errors ∧
            loaded.settings.Reflects (Settings.schemaIn env) held result.invalid := by
  refine ⟨?_, fun result h => ⟨fun f hf => ?_, fun name hname => ?_, errors_eq_nil_iff h⟩,
    fun channel disk env path => ⟨fun loaded h => Settings.exists_holds_of_load h,
      fun held hholds => ?_⟩⟩
  · rw [validate_eq_error_iff]
    simp only [Table.given?_eq_some_iff, and_assoc]
  · rw [name_mem_invalid_iff hnodup h hf]
    simp only [Table.given?_eq_some_iff, and_assoc]
  · obtain ⟨f, hf, rfl, -⟩ := (mem_invalid_iff h).1 hname
    exact List.mem_map_of_mem hf
  · rw [hholds.value_load channel, Settings.value_ofSection]
    refine ⟨fun fault h => ?_, fun result h => ?_⟩
    · rw [h]
      rfl
    · rw [h]
      refine ⟨_, rfl, rfl, Settings.reflects_ofTable (Schema.nodup_shell _) ?_ h⟩
      exact fun f hf => (Schema.fallback_passes _ f hf).ne_null

/-- An integer, a choice, a switch and a text that an application looks at. -/
def printing : Schema :=
  [{ name := "copies", kinds := [.integer], check := some .positive },
    { name := "side", choices := some [.text "front", .text "back"] },
    { name := "colour", kinds := [.switch, .list] },
    { name := "title"
      check := some (.custom fun v => .ok (if v.truth then [] else ["no title"])) }]

/-- A table with a truth value for the integer, another choice, a word for the switch, no text, and
a name that is not in the schema. -/
def misprinted : Table :=
  [("copies", .bool true), ("side", .text "left"), ("colour", .text "YES"), ("title", .text ""),
    ("tray", .int 2)]

/-- Files among which the default settings file holds the given text. -/
def Disk.holding (text : String) : Disk :=
  { cwd := ["root", ".config", "cmdnest"]
    entries := [(["root", ".config", "cmdnest", "config.toml"], .file text.toUTF8.toList)] }

/-- A settings file with a depth that is refused and a name that is not known. -/
def shallow : String := "[cmdnest]\nmax_depth = 0\nhue = 'x'"

theorem holds_shallow :
    Settings.Holds (Disk.holding shallow) {} "" [("max_depth", .int 0), ("hue", .text "x")] := by
  have htext : Text.decodeStrict? shallow.toUTF8.toList = some shallow.toList := by
    decide +kernel
  have hdocument : Document.read shallow.toList =
      .ok [("cmdnest", .table [("max_depth", .int 0), ("hue", .text "x")])] := by
    rfl
  exact .within rfl rfl htext hdocument rfl

/-- The table is refused in three fields, each for another reason, and the depth in the file gives
way to the schema's. -/
theorem misprinted_refused :
    (printing.map Field.name).Nodup ∧
    (∃ result, validate "printing" misprinted printing = .ok result ∧
      result.invalid = ["copies", "side", "title"] ∧ result.errors ≠ [] ∧
      ∀ f ∈ printing, (∃ v, misprinted.get? f.name = some v ∧ v ≠ .null ∧ f.Refuses v) ↔
        f.name ≠ "colour") ∧
    ∃ loaded, (Settings.load "" (Disk.holding shallow) {} "").value = .ok loaded ∧
      loaded.settings.get "max_depth" = .int 64 ∧ loaded.settings.get "hue" = .text "x" := by
  have hnodup : (printing.map Field.name).Nodup := by decide
  obtain ⟨-, hanswer, hload⟩ := refused_values_fall_back "printing" misprinted printing hnodup
  refine ⟨hnodup, ?_, ?_⟩
  · obtain ⟨result, hresult, hnames⟩ : ∃ result, validate "printing" misprinted printing =
        .ok result ∧ result.invalid = ["copies", "side", "title"] :=
      exists_validate_of_invalid (by decide +kernel)
    obtain ⟨hrefused, -, herrors⟩ := hanswer result hresult
    refine ⟨result, hresult, hnames, ?_, fun f hf => ?_⟩
    · rw [Ne, herrors, hnames]
      decide
    · rw [← hrefused f hf, hnames]
      simp only [printing, List.mem_cons, List.not_mem_nil, or_false] at hf
      obtain rfl | rfl | rfl | rfl := hf <;> decide
  · obtain ⟨result, hresult, hnames⟩ : ∃ result, validate Settings.sectionName
        [("max_depth", .int 0), ("hue", .text "x")] (Settings.schemaIn {}) = .ok result ∧
          result.invalid = ["max_depth"] :=
      exists_validate_of_invalid (by decide +kernel)
    obtain ⟨-, hholds⟩ := hload "" (Disk.holding shallow) {} ""
    obtain ⟨loaded, hloaded, -, hreflects⟩ := (hholds _ holds_shallow).2 result hresult
    refine ⟨loaded, hloaded, ?_, ?_⟩
    · obtain ⟨f, hf, hname, hfallback⟩ :
          ∃ f ∈ Settings.schemaIn {}, f.name = "max_depth" ∧ f.fallback = .int 64 := by
        simp [Settings.schemaIn, Schema.shell]
      rw [← hname, hreflects.known f hf, hname, hnames, if_pos (by decide), hfallback]
    · exact hreflects.unknown "hue" (by decide) .null

/-- The level `0x1` with 3600 zeros is of a kind that its field admits, but what is wrong with it
cannot be told, so that the settings are not loaded at all. -/
theorem load_unshowable :
    (Settings.ofDocument "" (Settings.schemaIn {})
      [(Settings.sectionName, .table [("log_level", .int (Int.pow 16 3600))])]).value =
        .error .unshowable := by
  have hlong : (Value.int (Int.pow 16 3600)).isShowable = false := by decide +kernel
  exact (Settings.ofDocument_eq_error_iff rfl).2 ⟨rfl, _, rfl, .level rfl hlong⟩

end CommandShell
