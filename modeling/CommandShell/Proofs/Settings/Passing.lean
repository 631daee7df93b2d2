import CommandShell.Proofs.Settings.Solid
import CommandShell.Proofs.Store.Keywords
import CommandShell.Settings.Load

/-!
# Loaded settings pass validation

Loading drops the values that do not pass validation, and the schema's values, which do, take
their place.  So whatever a document says, the settings that come of it have a value in every
field that passes the validation of this field.
-/

namespace CommandShell

/-! ## Tables -/

namespace Table

/-- In a table without repeated names every entry is found. -/
theorem get?_of_mem {t : Table} (hnodup : (t.map (·.1)).Nodup) {name : String} {v : Value}
    (h : (name, v) ∈ t) : t.get? name = some v := by
  have hnodup' : (t.reverse.map (·.1)).Nodup := by
    rw [List.map_reverse]
    exact List.nodup_reverse.2 hnodup
  rw [get?, (Store.find?_key_eq_some_iff hnodup').2 ⟨List.mem_reverse.2 h, rfl⟩]
  rfl

theorem given?_eq_some_iff {t : Table} {name : String} {v : Value} :
    t.given? name = some v ↔ t.get? name = some v ∧ v ≠ .null := by
  rw [given?]
  split
  next hnull =>
    rw [hnull]
    simp [eq_comm]
  next hother =>
    refine ⟨fun h => ⟨h, ?_⟩, And.left⟩
    rintro rfl
    exact hother h

end Table

/-- Of the values of a table, those of fields with a problem are left out. -/
theorem Settings.get?_accepted (t : Table) (v : Validation) (name : String) :
    (accepted t v).get? name = if name ∈ v.invalid then none else t.get? name := by
  rw [accepted, Table.get?, Table.get?, ← List.filter_reverse, List.find?_filter]
  split_ifs with hname
  · rw [Option.map_eq_none_iff, List.find?_eq_none]
    intro e _ he
    obtain ⟨hvalid, rfl⟩ : e.1 ∉ v.invalid ∧ e.1 = name := by simpa using he
    exact hvalid hname
  · congr 2
    funext e
    by_cases he : e.1 = name
    · simp [he, hname]
    · simp [he]

/-! ## One field -/

namespace Field

/-- The value is of a kind that the field admits, it is one of the listed choices, and the
further demand finds nothing wrong with it. -/
structure Passes (f : Field) (v : Value) : Prop where
  admits : f.admits v = true
  isChoice : f.isChoice v = true
  check : ∀ check, f.check = some check → check.problems v = .ok []

variable {f : Field} {v : Value}

/-- No kind admits what is missing. -/
theorem Passes.ne_null (h : f.Passes v) : v ≠ .null := by
  rintro rfl
  obtain ⟨k, -, hk⟩ := List.any_eq_true.1 h.admits
  cases k <;> simp [Kind.admits] at hk

theorem checkProblems_eq_nil_iff (table : String) :
    f.checkProblems table v = .ok [] ↔
      ∀ check, f.check = some check → check.problems v = .ok [] := by
  unfold checkProblems
  cases f.check with
  | none => simp [pure, Except.pure]
  | some check =>
    simp only [bind_eq_ok, Option.some.injEq, forall_eq']
    constructor
    · rintro ⟨problems, hproblems, hnil⟩
      cases problems with
      | nil => exact hproblems
      | cons message rest => cases hnil
    · intro hnone
      exact ⟨[], hnone, rfl⟩

theorem choiceProblems_eq_nil_iff (table : String) :
    f.choiceProblems table v = .ok [] ↔ f.isChoice v = true := by
  rw [choiceProblems]
  split_ifs with hchoice <;> simp [hchoice]

/-- Nothing is wrong with a value exactly if it passes. -/
theorem problems_eq_nil_iff (table : String) : f.problems table v = .ok [] ↔ f.Passes v := by
  unfold problems
  constructor
  · intro h
    split_ifs at h with hadmits
    · obtain ⟨first, hfirst, h⟩ := bind_eq_ok.1 h
      obtain ⟨others, hothers, hnil⟩ := bind_eq_ok.1 h
      obtain ⟨rfl, rfl⟩ := List.append_eq_nil_iff.1 (Except.ok.inj hnil)
      exact ⟨hadmits, (choiceProblems_eq_nil_iff table).1 hfirst,
        (checkProblems_eq_nil_iff table).1 hothers⟩
    · cases h
  · intro h
    rw [if_pos h.admits, (choiceProblems_eq_nil_iff table).2 h.isChoice,
      (checkProblems_eq_nil_iff table).2 h.check]
    rfl

end Field

/-! ## Validation -/

variable {table : String} {t : Table} {f : Field}

theorem passes_of_ofField {first : Validation} {v : Value}
    (h : Validation.ofField table t f = .ok first) (hvalid : f.name ∉ first.invalid)
    (hget : t.get? f.name = some v) (hne : v ≠ .null) : f.Passes v := by
  rw [Validation.ofField, Table.given?_eq_some_iff.2 ⟨hget, hne⟩] at h
  obtain ⟨errors, herrors, hfirst⟩ := bind_eq_ok.1 h
  cases hfirst
  cases errors with
  | nil => exact (Field.problems_eq_nil_iff table).1 herrors
  | cons error rest => simp at hvalid

/-- A table is checked field by field. -/
theorem exists_ofField_of_validate {schema : Schema} {result : Validation}
    (h : validate table t schema = .ok result) (hf : f ∈ schema) :
    ∃ first, Validation.ofField table t f = .ok first ∧ first.invalid ⊆ result.invalid := by
  induction schema generalizing result with
  | nil => cases hf
  | cons g rest ih =>
    rw [validate, bind_eq_ok] at h
    obtain ⟨first, hfirst, h⟩ := h
    obtain ⟨others, hothers, h⟩ := bind_eq_ok.1 h
    cases h
    obtain rfl | hrest := List.mem_cons.1 hf
    · exact ⟨first, hfirst, List.subset_append_left _ _⟩
    · obtain ⟨found, hfound, hsub⟩ := ih hothers hrest
      exact ⟨found, hfound, List.subset_append_of_subset_right _ hsub⟩

theorem exists_validate_of_invalid {schema : Schema} {names : List String}
    (h : (validate table t schema).toOption.map Validation.invalid = some names) :
    ∃ result, validate table t schema = .ok result ∧ result.invalid = names := by
  cases hvalidate : validate table t schema with
  | error fault =>
    rw [hvalidate] at h
    cases h
  | ok result =>
    rw [hvalidate] at h
    exact ⟨result, rfl, Option.some.inj h⟩

/-- What is left of a table after validation passes. -/
theorem passes_of_accepted {schema : Schema} {result : Validation}
    (h : validate table t schema = .ok result) (hf : f ∈ schema) {v : Value}
    (hget : (Settings.accepted t result).get? f.name = some v) (hne : v ≠ .null) :
    f.Passes v := by
  obtain ⟨first, hfirst, hsub⟩ := exists_ofField_of_validate h hf
  rw [Settings.get?_accepted] at hget
  split_ifs at hget with hvalid
  exact passes_of_ofField hfirst (fun hmem => hvalid (hsub hmem)) hget hne

/-! ## The schema's own values -/

namespace Schema

theorem names_fallbacks (schema : Schema) :
    (schema.fallbacks.map (·.1)).Sublist (schema.map Field.name) := by
  induction schema with
  | nil => exact .slnil
  | cons g rest ih =>
    rw [fallbacks, List.filterMap_cons]
    cases hg : g.fallback with
    | null => exact ih.cons g.name
    | _ => exact ih.cons_cons g.name

theorem get?_fallbacks {schema : Schema} (hnodup : (schema.map Field.name).Nodup)
    (hf : f ∈ schema) (hne : f.fallback ≠ .null) :
    schema.fallbacks.get? f.name = some f.fallback := by
  refine Table.get?_of_mem (hnodup.sublist (names_fallbacks schema))
    (List.mem_filterMap.2 ⟨f, hf, ?_⟩)
  split
  next hnull => exact absurd hnull hne
  next => rfl

/-- Every setting of the shell has a value that passes if none is given. -/
theorem fallback_passes (historyFile : String) : ∀ f ∈ shell historyFile, f.Passes f.fallback := by
  have hlevel : (Level.parse? "warning").isSome = true := by decide +kernel
  intro f hf
  simp only [shell, List.mem_cons, List.not_mem_nil, or_false] at hf
  obtain rfl | rfl | rfl | rfl | rfl | rfl | rfl | rfl := hf
  all_goals refine ⟨rfl, rfl, fun check hcheck => ?_⟩
  all_goals cases hcheck
  -- Five of the fields ask for more than a kind.
  · rfl
  · rfl
  · rfl
  · rfl
  · simp [Check.problems, Value.isShowable, Value.shown, hlevel]

theorem nodup_shell (historyFile : String) : ((shell historyFile).map Field.name).Nodup := by
  change ["prompt", "delimiters", "comment", "max_depth", "max_args", "history_file", "log_level",
    "log_file"].Nodup
  decide

end Schema

/-! ## Loaded settings -/

namespace Settings

/-- Every setting of the shell has a value that passes. -/
def Passing (historyFile : String) (settings : Settings) : Prop :=
  ∀ f ∈ Schema.shell historyFile, f.Passes (settings.get f.name)

variable {channel historyFile : String} {loaded : Loaded}

theorem passing_ofSection (ht : t.Solid)
    (h : (ofSection channel (.shell historyFile) t).value = .ok loaded) :
    loaded.settings.Passing historyFile := by
  intro f hf
  rw [ofSection] at h
  split at h
  next => cases h
  next result hresult =>
    obtain rfl := Except.ok.inj h
    have hfallback := Schema.fallback_passes historyFile f hf
    dsimp only [ofTable, get]
    cases hget : (accepted t result).get? f.name with
    | none =>
      dsimp only
      rw [Schema.get?_fallbacks (Schema.nodup_shell historyFile) hf hfallback.ne_null]
      exact hfallback
    | some v =>
      refine passes_of_accepted hresult hf hget ?_
      rintro rfl
      rw [get?_accepted] at hget
      split_ifs at hget
      exact ht.ne_null f.name hget

/-- **The settings of a document pass validation,** whatever the document says. -/
theorem passing_ofDocument {document : Table} (hdocument : document.Solid)
    (h : (ofDocument channel (.shell historyFile) document).value = .ok loaded) :
    loaded.settings.Passing historyFile := by
  rw [ofDocument] at h
  split at h
  next => exact passing_ofSection .nil h
  next t ht => exact passing_ofSection (hdocument.of_get? ht).entries h
  next => cases h

end Settings

end CommandShell
