import CommandShell.Editor
import CommandShell.Proofs.Line.Completion

/-!
# Insertions make the completed lines

A line editor is offered texts to insert, each with the place from which it replaces what was
typed; completion by itself offers whole lines.  Both find that place among all words of the line,
while the word that is completed was chosen among those within the limit.  They agree on every
line: the place is never outside of what was typed, and what was typed there, replaced, is the
completed line.
-/

namespace CommandShell

/-- The text once an insertion was made: what it replaces is the end of the text. -/
def Insertion.applied (i : Insertion) (text : String) : String :=
  String.ofList (text.toList.take (text.length - (-i.start).toNat)) ++ i.text

/-- An empty setting leaves the default delimiters. -/
theorem Shell.delimiters_ne_empty {channel : String} {settings : Settings} {root : CommandId}
    {shell : Shell} (h : (ofSettings channel settings root).value = .ok shell) :
    shell.rules.delimiters ≠ "" := by
  have hdelimiters : delimitersOf settings ≠ "" := by
    rw [delimitersOf]
    split_ifs with hempty
    · decide
    · simpa using hempty
  rw [ofSettings, Noted.value_bind] at h
  split at h
  next => cases h
  next =>
    rw [Noted.value_bind] at h
    split at h
    next => cases h
    next =>
      cases h
      exact hdelimiters

namespace Store

variable {s : Store} {rules : LineRules} {root : CommandId} {line : String}

/-- A completion replaces a part of the line, whichever word it is for. -/
theorem insertionPoint_le (rules : LineRules) (line : String) (nest : Nat) :
    insertionPoint rules line nest ≤ line.length := by
  rw [insertionPoint]
  cases hspan : (spans rules.delimiters line)[nest]? with
  | none => exact Nat.le_refl _
  | some span =>
    obtain ⟨before, word, after, hline, rfl, -⟩ := exists_of_spans hspan
    rw [Option.map_some, Option.getD_some, ← String.length_toList, hline]
    simp

theorem completeLine_of_none (h : (s.complete rules root line).value = none) :
    (s.completeLine rules root line).value = .ok [] := by
  rw [completeLine, Noted.value_bind, candidates, Noted.value_bind, h]
  rfl

variable {shell : Shell} {text : String}

theorem insertions_of_none (h : (s.complete shell.rules shell.root text).value = none) :
    (s.insertions shell text).value = .ok [] := by
  rw [insertions, Noted.value_bind, h]
  rfl

/-- Each keyword that fits is offered, ended by the first delimiter, to replace the text from the
start of the word that it completes. -/
theorem value_insertions {completion : Completion} {d : Char} {ds : List Char}
    (hd : shell.rules.delimiters.toList = d :: ds)
    (h : (s.complete shell.rules shell.root text).value = some completion) :
    (s.insertions shell text).value =
      .ok (completion.found.keywords.map fun keyword =>
        ⟨keyword.push d,
          insertionPoint shell.rules text completion.resolution.nest - text.length, keyword⟩) := by
  have hended : ∀ keyword, ended shell.rules keyword = .ok (keyword.push d) := by
    intro keyword
    rw [ended, hd]
  have hstart : (spans shell.rules.delimiters text)[completion.resolution.nest]?.elim
      text.length Span.start = insertionPoint shell.rules text completion.resolution.nest := by
    rw [insertionPoint]
    cases (spans shell.rules.delimiters text)[completion.resolution.nest]? <;> rfl
  rw [insertions, Noted.value_bind, h]
  dsimp only
  rw [hstart]
  simp only [Noted.value_pure, hended]
  exact List.mapM_pure

/-- What an insertion replaces is counted from the end of the text. -/
theorem applied_of_le {start : Nat} (hstart : start ≤ text.length) (inserted label : String) :
    Insertion.applied ⟨inserted, start - text.length, label⟩ text =
      String.ofList (text.toList.take start) ++ inserted := by
  have hkept : text.length - (-((start : Int) - text.length)).toNat = start := by omega
  rw [Insertion.applied, hkept]

/-- **Every insertion makes a completed line.**  For every shell that settings describe, whatever
they say, every tree and every text before the cursor: there is an answer, each insertion replaces
a part of the text, and the texts with one insertion made are, in order, the completed lines. -/
theorem completeLine_insertions {channel : String} {settings : Settings} {root : CommandId}
    {shell : Shell} (h : (Shell.ofSettings channel settings root).value = .ok shell)
    (s : Store) (text : String) :
    ∃ insertions, (s.insertions shell text).value = .ok insertions ∧
      (∀ i ∈ insertions, -(text.length : Int) ≤ i.start ∧ i.start ≤ 0) ∧
      (s.completeLine shell.rules shell.root text).value =
        .ok (insertions.map (·.applied text)) := by
  obtain ⟨d, ds, hd⟩ := List.exists_cons_of_ne_nil
    (mt String.toList_eq_nil_iff.1 (Shell.delimiters_ne_empty h))
  cases hcomplete : (s.complete shell.rules shell.root text).value with
  | none =>
    exact ⟨[], insertions_of_none hcomplete, by simp, completeLine_of_none hcomplete⟩
  | some completion =>
    have hle := insertionPoint_le shell.rules text completion.resolution.nest
    refine ⟨_, value_insertions hd hcomplete, ?_, ?_⟩
    · intro i hi
      obtain ⟨keyword, -, rfl⟩ := List.mem_map.1 hi
      constructor <;> dsimp only <;> omega
    · rw [value_completeLine hd hcomplete, List.map_map]
      refine congrArg Except.ok (List.map_congr_left fun keyword _ => ?_)
      exact (applied_of_le hle (keyword.push d) keyword).symm

/-- Settings that take the last word of a line away and name no delimiter. -/
def curtailing : Settings where
  values := [("max_args", .int (-1)), ("delimiters", .text "")]

/-- The last word counts for nothing, and is replaced together with the one before it. -/
theorem curtailing_insertions :
    let shell : Shell := { rules := { maxWords := -1 }, root := ⟨0⟩ }
    (Shell.ofSettings "" curtailing ⟨0⟩).value = .ok shell ∧
      (logShell.insertions shell "\tlog le x").value =
        .ok [⟨"level ", -4, "level"⟩, ⟨"leave ", -4, "leave"⟩, ⟨"le ft ", -4, "le ft"⟩] ∧
      (logShell.completeLine shell.rules shell.root "\tlog le x").value =
        .ok ["\tlog level ", "\tlog leave ", "\tlog le ft "] := by
  intro shell
  have hshell : (Shell.ofSettings "" curtailing ⟨0⟩).value = .ok shell := rfl
  have hcomplete : (logShell.complete shell.rules shell.root "\tlog le x").value =
      some ⟨⟨⟨1⟩, 1, some "le"⟩, ["level", "leave", "le ft"], 5⟩ := by decide +kernel
  have hvalue : (logShell.insertions shell "\tlog le x").value =
      .ok [⟨"level ", -4, "level"⟩, ⟨"leave ", -4, "leave"⟩, ⟨"le ft ", -4, "le ft"⟩] := by
    have hfirst : shell.rules.delimiters.toList = [' ', '\t', '\r', '\n'] := by decide
    rw [value_insertions hfirst hcomplete]
    exact congrArg Except.ok (by decide +kernel)
  obtain ⟨insertions, hinsertions, -, hlines⟩ :=
    completeLine_insertions hshell logShell "\tlog le x"
  cases hvalue.symm.trans hinsertions
  exact ⟨hshell, hvalue, hlines.trans (congrArg Except.ok (by decide +kernel))⟩

end Store

end CommandShell
