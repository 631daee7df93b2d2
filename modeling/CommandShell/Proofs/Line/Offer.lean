import CommandShell.Proofs.Line.Weaving
import Mathlib.Logic.ExistsUnique

/-!
# What completion offers

The words of a line are followed as far as they match.  That gives a place in the tree and a
word to be completed there; what is offered are the keywords that the word may become.  There
is no answer for a line without words, for one with a comment, and where there are no
sub-commands.
-/

namespace CommandShell

theorem foldl_max_eq (ns : List Nat) : ns.foldl max 0 = ns.max?.getD 0 := by
  cases ns with
  | nil => rfl
  | cons n ns => rw [List.foldl_cons, Nat.zero_max, List.max?_cons', Option.getD_some]

namespace Store

variable {s : Store} {rules : LineRules} {root : CommandId} {line : String}

/-- The answer for words of which the first `m`, and no more, can be followed.  There is none if
there are no words, if one of them starts a comment, and if there are no sub-commands where they
stand.  Otherwise it has the keywords of those sub-commands that start with the word to be
completed, in the order of registration, and the length of the longest of them. -/
structure Answered (s : Store) (rules : LineRules) (root : CommandId) (words : List String)
    (trailing : Bool) (m : Nat) (answer? : Option Completion) : Prop where
  placed : words ≠ [] → ∃! r, s.Position root words trailing m r
  none_iff : answer? = none ↔ words = [] ∨ (∃ word ∈ words, rules.Marks word) ∨
    ∃ r, s.Position root words trailing m r ∧ s.subcommands r.node = []
  position : ∀ answer ∈ answer?, s.Position root words trailing m answer.resolution
  keywords : ∀ answer ∈ answer?, ∃ start, answer.resolution.start? = some start ∧
    answer.found.keywords =
      ((s.subcommands answer.resolution.node).map s.keyword).filter (startsWith start)
  longest : ∀ answer ∈ answer?,
    answer.found.longest = ((answer.found.keywords.map String.length).max?).getD 0

/-- What a completion looks at by its place is there: a command after each of the words that were
followed, a word after these unless all were, a command before the last one, and the last
character of the line. -/
structure Indexed (line : String) (words : List String) (path : List CommandId) (m : Nat) :
    Prop where
  length : path.length = m + 1
  next : m = words.length ∨ words[m]?.isSome
  before : words ≠ [] → m = words.length → path.dropLast.getLast?.isSome
  ending : words ≠ [] → line.toList.getLast?.isSome

theorem Position.exists_start {words : List String} {trailing : Bool} {m : Nat} {r : Resolution}
    (h : s.Position root words trailing m r) : ∃ start, r.start? = some start := by
  cases h with
  | @unmatched word => exact ⟨word, rfl⟩
  | ended => exact ⟨"", rfl⟩
  | @touched _ word => exact ⟨word, rfl⟩

/-- The answer, for words without a comment. -/
theorem complete_eq (hwords : (rules.split line).value ≠ [])
    (hfree : ¬ ∃ word ∈ (rules.split line).value, rules.Marks word) {r : Resolution}
    (hr : (s.resolve root (rules.split line).value
      (endsWithDelimiter rules.delimiters line)).value = r)
    {start : String} (hstart : r.start? = some start) :
    (s.complete rules root line).value =
      if (s.subcommands r.node).isEmpty then none
      else
        let keywords := ((s.subcommands r.node).map s.keyword).filter (startsWith start)
        some ⟨r, keywords, ((keywords.map String.length).max?).getD 0⟩ := by
  have hcomment : ∀ word ∈ (rules.split line).value, rules.isComment word = false :=
    fun word hword => LineRules.isComment_eq_false_iff.2 fun h => hfree ⟨word, hword, h⟩
  rw [complete_of_words hwords hcomment hr, hstart, value_startingWith, Option.bind_some]
  dsimp only
  split_ifs
  · rfl
  · rw [foldl_max_eq, Option.map_some]

theorem complete_of_nil (h : (rules.split line).value = []) :
    (s.complete rules root line).value = none := by
  by_contra hsome
  obtain ⟨answer, hanswer⟩ := Option.ne_none_iff_exists'.1 hsome
  exact (words_of_complete hanswer).1 h

theorem complete_of_marks (h : ∃ word ∈ (rules.split line).value, rules.Marks word) :
    (s.complete rules root line).value = none := by
  obtain ⟨word, hword, hmarks⟩ := h
  by_contra hsome
  obtain ⟨answer, hanswer⟩ := Option.ne_none_iff_exists'.1 hsome
  have hfree := (words_of_complete hanswer).2 word hword
  exact LineRules.isComment_eq_false_iff.1 hfree hmarks

/-- A line that has words has a last character. -/
theorem getLast?_of_split (h : (rules.split line).value ≠ []) :
    line.toList.getLast?.isSome := by
  rw [List.getLast?_isSome]
  intro hnil
  have hnone : wordsOf rules.delimiters line = [] := by
    rw [wordsOf_eq, hnil]
    rfl
  have hsplit := rules.split_prefix_wordsOf line
  rw [hnone, List.prefix_nil] at hsplit
  exact h hsplit

theorem indexed_descend {path : List CommandId} {node : CommandId}
    (hwalk : s.Walk root ((rules.split line).value.take path.length) path node) :
    Indexed line (rules.split line).value (path ++ [node]) path.length where
  length := by simp
  next := by
    have hle := hwalk.length_le
    by_cases hall : path.length = (rules.split line).value.length
    · exact .inl hall
    · refine .inr ?_
      rw [List.getElem?_eq_getElem (by omega)]
      rfl
  before hwords hall := by
    rw [List.dropLast_concat, List.getLast?_isSome, ← List.length_pos_iff, hall,
      List.length_pos_iff]
    exact hwords
  ending := getLast?_of_split

/-- No answer, where there is a reason for it. -/
theorem answered_none {words : List String} {trailing : Bool} {m : Nat}
    (hplaced : words ≠ [] → ∃! r, s.Position root words trailing m r)
    (h : words = [] ∨ (∃ word ∈ words, rules.Marks word) ∨
      ∃ r, s.Position root words trailing m r ∧ s.subcommands r.node = []) :
    s.Answered rules root words trailing m none :=
  ⟨hplaced, iff_of_true rfl h, by simp, by simp, by simp⟩

/-- The answer at the place where words without a comment stand. -/
theorem Position.answered {words : List String} {trailing : Bool} {m : Nat} {r : Resolution}
    {start : String} (hposition : s.Position root words trailing m r)
    (hstart : r.start? = some start) (hwords : words ≠ [])
    (hfree : ¬ ∃ word ∈ words, rules.Marks word) :
    s.Answered rules root words trailing m
      (if (s.subcommands r.node).isEmpty then none
      else
        let keywords := ((s.subcommands r.node).map s.keyword).filter (startsWith start)
        some ⟨r, keywords, ((keywords.map String.length).max?).getD 0⟩) := by
  have hplaced : words ≠ [] → ∃! r, s.Position root words trailing m r :=
    fun _ => ⟨r, hposition, fun _ h => h.unique hposition⟩
  split_ifs with hempty
  · exact answered_none hplaced (.inr (.inr ⟨r, hposition, List.isEmpty_iff.1 hempty⟩))
  · refine ⟨hplaced, iff_of_false (by simp) ?_, ?_, ?_, ?_⟩
    · rintro (hnil | hmarks | ⟨r', hr', hnone⟩)
      · exact hwords hnil
      · exact hfree hmarks
      · -- Words stand at one place only.
        rw [hr'.unique hposition] at hnone
        exact hempty (List.isEmpty_iff.2 hnone)
    · rintro _ ⟨⟩
      exact hposition
    · rintro _ ⟨⟩
      exact ⟨start, hstart, rfl⟩
    · rintro _ ⟨⟩
      rfl

/-- **What completion answers.**  For every tree, line, delimiters, comment marker and limit: the
words of the line are followed as far as they match, and the answer is about the place where they
then stand.  What the completion looks at by its place in the line, in its words or on the way down
the tree is always there. -/
theorem complete_answered (s : Store) (rules : LineRules) (root : CommandId) (line : String) :
    ∃ m, IsGreatest {n | s.Matched root (rules.split line).value n} m ∧
      s.Answered rules root (rules.split line).value (endsWithDelimiter rules.delimiters line) m
        (s.complete rules root line).value ∧
      Indexed line (rules.split line).value (s.descend root (rules.split line).value).value m := by
  obtain ⟨path, node, hdescend, hwalk, hgreatest⟩ :=
    s.exists_walk_descend root (rules.split line).value
  refine ⟨path.length, hgreatest, ?_, hdescend ▸ indexed_descend hwalk⟩
  have hposition := fun hwords => resolve_position hwords hdescend hwalk
    (endsWithDelimiter rules.delimiters line)
  have hplaced : (rules.split line).value ≠ [] → ∃! r, s.Position root (rules.split line).value
      (endsWithDelimiter rules.delimiters line) path.length r :=
    fun hwords => ⟨_, hposition hwords, fun _ h => h.unique (hposition hwords)⟩
  by_cases hwords : (rules.split line).value = []
  · rw [complete_of_nil hwords]
    exact answered_none hplaced (.inl hwords)
  by_cases hmarks : ∃ word ∈ (rules.split line).value, rules.Marks word
  · rw [complete_of_marks hmarks]
    exact answered_none hplaced (.inr (.inl hmarks))
  · obtain ⟨start, hstart⟩ := (hposition hwords).exists_start
    rw [complete_eq hwords hmarks rfl hstart]
    exact (hposition hwords).answered hstart hwords hmarks

-- With `log level` and `log leave`: a word to be completed, a whole one, and a comment.
example :
    let s : Store :=
      { commands := [{ children := some (.owned ⟨0⟩) },
          { keyword := "log", children := some (.owned ⟨1⟩) }, { keyword := "level" },
          { keyword := "leave" }]
        registries := [{ items := [⟨1⟩] }, { items := [⟨2⟩, ⟨3⟩] }] }
    (s.complete {} ⟨0⟩ "log lev").value = some ⟨⟨⟨1⟩, 1, some "lev"⟩, ["level"], 5⟩ ∧
      (s.complete {} ⟨0⟩ "log").value = some ⟨⟨⟨0⟩, 0, some "log"⟩, ["log"], 3⟩ ∧
      (s.complete {} ⟨0⟩ "log ").value = some ⟨⟨⟨1⟩, 1, some ""⟩, ["level", "leave"], 5⟩ ∧
      (s.complete {} ⟨0⟩ "log lev #").value = none := by
  decide +kernel

end Store

end CommandShell
