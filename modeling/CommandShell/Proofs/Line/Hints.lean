import CommandShell.Hint
import CommandShell.Proofs.Line.Weaving

/-!
# What is shown after a line

The hints of the last command that a line names list its arguments.  As many of them as the
line has words after the command are fulfilled, and the others are shown, as they were written.

A hint invites to type on, and in a line without a comment the next word is one more argument.
In a line with a comment it is not, but the hint is shown all the same: it is the one for the
part of the line before the comment.
-/

namespace CommandShell

/-! ## The rest of the hints -/

/-- The rest of a text, from word number `k` on. -/
structure FromWord (delimiters text : String) (k : Nat) (rest : String) : Prop where
  begins : ∃ before span, text = before ++ rest ∧ (spans delimiters text)[k]? = some span ∧
    span.start = before.length
  words : wordsOf delimiters rest = (wordsOf delimiters text).drop k

theorem fromWord_of_span {delimiters text : String} {k : Nat} {span : Span}
    (h : (spans delimiters text)[k]? = some span) :
    FromWord delimiters text k (String.ofList (text.toList.drop span.start)) := by
  obtain ⟨before, word, after, htext, hspan, hbefore, -, -, hk⟩ := exists_of_spans h
  have hstart : span.start = before.length := by simp [hspan]
  have hrest : text.toList.drop span.start = word ++ after := by
    rw [hstart, htext, List.drop_left]
  constructor
  case begins =>
    refine ⟨String.ofList before, span, ?_, h, by simp [hstart]⟩
    rw [hrest, ← String.toList_inj, htext]
    simp
  case words =>
    rw [wordsOf_eq, wordsOf_eq, String.toList_ofList, hrest, htext, fields_append (.inl hbefore),
      ← List.map_drop, List.drop_left' hk]

theorem length_wordsOf (delimiters text : String) :
    (wordsOf delimiters text).length = (spans delimiters text).length := by
  rw [wordsOf, List.length_map]

theorem FromWord.head_words {delimiters text rest : String} {k : Nat} {span : Span}
    (h : FromWord delimiters text k rest) (hspan : (spans delimiters text)[k]? = some span) :
    (wordsOf delimiters rest).head? = some (span.cut text) := by
  rw [h.words, List.head?_drop, wordsOf, List.getElem?_map, hspan, Option.map_some]

/-- With no more words for the command than there are in all, the next hint is the one with the
number of the words left. -/
theorem hintSpan_eq {count nest : Nat} (h : nest ≤ count) (delimiters argHints : String) :
    hintSpan delimiters argHints count nest = (spans delimiters argHints)[count - nest]? := by
  have hindex : ((count : Int) - nest).toNat = count - nest := by omega
  rw [hintSpan, hintIndex]
  split_ifs with hout
  · rw [Option.bind_none, List.getElem?_eq_none (by omega)]
  · rw [Option.bind_some, hindex]

namespace Store

variable {s : Store} {rules : LineRules} {root : CommandId} {line : String}

/-! ## The hint -/

/-- The hints left after words, for the command that the first of them lead to. -/
def hintsLeft (s : Store) (delimiters : String) (root : CommandId) (words : List String) :
    Option String :=
  let path := (s.descend root words).value
  if path.length - 1 = 0 then none
  else
    hintsFrom delimiters (s.command (path.getLastD root)).argHints words.length
      ((path.length - 1 : Nat) : Int)

/-- What is shown depends on the words that count, and on how the line ends. -/
theorem value_hintFor (s : Store) (rules : LineRules) (root : CommandId) (line : String) :
    (s.hintFor rules root line).value =
      (s.hintsLeft rules.delimiters root (rules.tokenize line).value).map fun rest =>
        if endsWithDelimiter rules.delimiters line then rest else " " ++ rest := by
  rw [hintFor, Noted.value_bind, hintsLeft]
  by_cases hwords : (rules.tokenize line).value = []
  · rw [hwords]
    rfl
  rw [if_neg (by simpa using hwords), Noted.value_bind]
  dsimp only
  by_cases hnest : (s.descend root (rules.tokenize line).value).value.length - 1 = 0
  · rw [if_pos hnest, if_pos hnest]
    rfl
  · rw [if_neg hnest, if_neg hnest, Noted.value_bind, Noted.value_pure, remainingHints]
    split_ifs <;> simp

theorem hintsLeft_eq {words : List String} {path : List CommandId} {node : CommandId}
    (hdescend : (s.descend root words).value = path ++ [node]) (delimiters : String) :
    s.hintsLeft delimiters root words =
      if path.length = 0 then none
      else hintsFrom delimiters (s.command node).argHints words.length path.length := by
  have hlength : (path ++ [node]).length - 1 = path.length := by simp
  rw [hintsLeft, hdescend, hlength, List.getLastD_concat]

/-- The hint after words of which the first `n` lead to a command.  There is none if there are no
words, if none of them leads anywhere, and if as many words are left as there are hints.  Otherwise
it is the rest of the hints, from the one that has the number of the words left, and a space comes
before it unless there is a delimiter. -/
structure Hinted (s : Store) (rules : LineRules) (words : List String) (trailing : Bool) (n : Nat)
    (node : CommandId) (hint? : Option String) : Prop where
  nonneg : 0 ≤ (words.length : Int) - n
  none_iff : hint? = none ↔ words = [] ∨ n = 0 ∨
    (wordsOf rules.delimiters (s.command node).argHints).length ≤ words.length - n
  shown : ∀ hint ∈ hint?, ∃ rest,
    FromWord rules.delimiters (s.command node).argHints (words.length - n) rest ∧
    hint = (if trailing then rest else " " ++ rest) ∧
    ∃ next, nextHint rules.delimiters (s.command node).argHints words.length n = some next ∧
      (wordsOf rules.delimiters rest).head? = some next

/-- What is shown is the rest of the hints of the command that the first `n` words lead to. -/
theorem hinted_of_le {words : List String} {n : Nat} (hle : n ≤ words.length) (trailing : Bool)
    (node : CommandId) :
    s.Hinted rules words trailing n node
      ((if n = 0 then none
        else hintsFrom rules.delimiters (s.command node).argHints words.length n).map fun rest =>
        if trailing then rest else " " ++ rest) := by
  by_cases hzero : n = 0
  · rw [if_pos hzero]
    exact ⟨by omega, iff_of_true rfl (.inr (.inl hzero)), by simp⟩
  have hwords : words ≠ [] := by
    rintro rfl
    exact hzero (Nat.le_zero.1 hle)
  rw [if_neg hzero, hintsFrom, hintSpan_eq hle]
  cases hspan : (spans rules.delimiters (s.command node).argHints)[words.length - n]? with
  | none =>
    have hfew := List.getElem?_eq_none_iff.1 hspan
    rw [← length_wordsOf] at hfew
    exact ⟨by omega, iff_of_true rfl (.inr (.inr hfew)), by simp⟩
  | some span =>
    have hmany := (List.getElem?_eq_some_iff.1 hspan).1
    rw [← length_wordsOf] at hmany
    have hrest := fromWord_of_span hspan
    refine ⟨by omega, iff_of_false (by simp) (by simp [hwords, hzero, hmany]), ?_⟩
    rintro _ ⟨⟩
    refine ⟨_, hrest, rfl, span.cut (s.command node).argHints, ?_, hrest.head_words hspan⟩
    rw [nextHint, hintSpan_eq hle, hspan, Option.map_some]

/-- **What is shown after a line.**  For every tree, line, delimiters, comment marker and limit:
the words that count are followed as far as they match, and the hint is about the last command
reached. -/
theorem hintFor_hinted (s : Store) (rules : LineRules) (root : CommandId) (line : String) :
    ∃ path node, (s.descend root (rules.tokenize line).value).value = path ++ [node] ∧
      s.Walk root ((rules.tokenize line).value.take path.length) path node ∧
      IsGreatest {n | s.Matched root (rules.tokenize line).value n} path.length ∧
      s.Hinted rules (rules.tokenize line).value (endsWithDelimiter rules.delimiters line)
        path.length node (s.hintFor rules root line).value := by
  obtain ⟨path, node, hdescend, hwalk, hgreatest⟩ :=
    s.exists_walk_descend root (rules.tokenize line).value
  refine ⟨path, node, hdescend, hwalk, hgreatest, ?_⟩
  rw [value_hintFor, hintsLeft_eq hdescend]
  exact hinted_of_le hgreatest.1.1 _ node

-- The hints of `log`, after its keyword, after one argument and after two.
example :
    let s : Store :=
      { commands := [{ children := some (.owned ⟨0⟩) },
          { keyword := "log", argHints := " <name>  <text>" }]
        registries := [{ items := [⟨1⟩] }] }
    (s.hintFor {} ⟨0⟩ "log").value = some " <name>  <text>" ∧
      (s.hintFor {} ⟨0⟩ "log x ").value = some "<text>" ∧
      (s.hintFor {} ⟨0⟩ "log x y").value = none := by
  decide +kernel

/-! ## Typing on -/

theorem endsWithDelimiter_of_closes {delimiters before : String}
    (h : Closes (isDelimiter delimiters) before.toList) (hne : before ≠ "") :
    endsWithDelimiter delimiters before = true := by
  have hlast := List.getLast?_eq_some_getLast (mt String.toList_eq_nil_iff.1 hne)
  rw [endsWithDelimiter, hlast, Option.map_some, Option.getD_some]
  exact h _ hlast

/-- The line up to a word that starts with the comment marker: no word goes on after it. -/
theorem exists_before_comment {kept others : List String} {comment : String}
    (hwords : wordsOf rules.delimiters line = kept ++ comment :: others)
    (hmarks : rules.Marks comment) :
    ∃ before rest, line = before ++ rest ∧ rules.comment.toList <+: rest.toList ∧
      Closes (isDelimiter rules.delimiters) before.toList ∧
      wordsOf rules.delimiters before = kept := by
  have hat : (wordsOf rules.delimiters line)[kept.length]? = some comment := by
    rw [hwords, List.getElem?_append_right (Nat.le_refl _), Nat.sub_self]
    rfl
  obtain ⟨before, rest, hline, -, hcloses, hbefore, hrest⟩ := exists_cut (.inl hat)
  refine ⟨String.ofList before, String.ofList rest, ?_, ?_, ?_, ?_⟩
  · rw [← String.toList_inj, hline]
    simp
  · rw [String.toList_ofList]
    exact hmarks.2.trans hrest
  · rwa [String.toList_ofList]
  · rw [wordsOf_eq, String.toList_ofList, hbefore, hwords, List.take_left]

/-- **A word typed where there is a hint is one more argument, unless there is a comment.**  In a
line with a comment the word is lost, and the hint is the one for what stands before the
comment. -/
theorem tokenize_of_hint {hint word : String} {d : Char}
    (hd : isDelimiter rules.delimiters d = true)
    (hfew : (wordsOf rules.delimiters line).length < rules.maxWords)
    (hhint : (s.hintFor rules root line).value = some hint)
    (hword : IsWord (isDelimiter rules.delimiters) word.toList) (hmark : ¬ rules.Marks word) :
    ((∀ other ∈ wordsOf rules.delimiters line, ¬ rules.Marks other) →
      (rules.tokenize (line.push d ++ word)).value = (rules.tokenize line).value ++ [word]) ∧
    ((∃ other ∈ wordsOf rules.delimiters line, rules.Marks other) →
      (rules.tokenize (line.push d ++ word)).value = (rules.tokenize line).value ∧
      ∃ before rest shown, line = before ++ rest ∧ rules.comment.toList <+: rest.toList ∧
        (s.hintFor rules root before).value = some shown ∧
        hint = if endsWithDelimiter rules.delimiters line then shown else " " ++ shown) := by
  have htyped : wordsOf rules.delimiters (line.push d ++ word) =
      wordsOf rules.delimiters line ++ [word] := by
    rw [wordsOf_push_append hd, wordsOf_word hword]
  constructor
  · intro hfree
    rw [LineRules.tokenize_eq_wordsOf (Int.le_of_lt hfew) hfree, ← htyped]
    refine LineRules.tokenize_eq_wordsOf ?_ ?_
    · rw [htyped, List.length_append, List.length_singleton]
      omega
    · rw [htyped]
      simpa [or_imp, forall_and] using ⟨hfree, hmark⟩
  · intro hmarks
    obtain ⟨kept, comment, others, hwords, hfree, hcomment⟩ :=
      LineRules.exists_first_comment hmarks
    have hkept : kept.length ≤ rules.maxWords := by
      rw [hwords, List.length_append] at hfew
      omega
    have hline : (rules.tokenize line).value = kept :=
      LineRules.tokenize_of_wordsOf hwords hkept hfree (by simpa using hcomment)
    constructor
    · rw [hline]
      rw [hwords, List.append_assoc, List.cons_append] at htyped
      exact LineRules.tokenize_of_wordsOf htyped hkept hfree (by simpa using hcomment)
    · obtain ⟨before, rest, hcut, hrest, hcloses, hbefore⟩ := exists_before_comment hwords hcomment
      have hsame : (rules.tokenize before).value = kept := by
        subst hbefore
        exact LineRules.tokenize_eq_wordsOf hkept hfree
      rw [value_hintFor, hline] at hhint
      obtain ⟨shown, hshown, rfl⟩ := Option.map_eq_some_iff.1 hhint
      -- There was a hint, so there are words before the comment.
      have hne : before ≠ "" := by
        rintro rfl
        subst hbefore
        cases hshown
      refine ⟨before, rest, shown, hcut, hrest, ?_, rfl⟩
      rw [value_hintFor, hsame, hshown, Option.map_some,
        if_pos (endsWithDelimiter_of_closes hcloses hne)]

/-- The shell of the lines below, with one command that takes two arguments. -/
def hintShell : Store where
  commands := [{ children := some (.owned ⟨0⟩) },
    { keyword := "log", argHints := " <name>  <text>" }]
  registries := [{ items := [⟨1⟩] }]

/-- A second argument, where the hint asks for one. -/
theorem hintShell_typed :
    (hintShell.hintFor {} ⟨0⟩ "log a").value = some " <text>" ∧
      (LineRules.tokenize {} ("log a".push ' ' ++ "b")).value =
        (LineRules.tokenize {} "log a").value ++ ["b"] := by
  have hhint : (hintShell.hintFor {} ⟨0⟩ "log a").value = some " <text>" := by decide +kernel
  refine ⟨hhint, ?_⟩
  refine (tokenize_of_hint (by decide) (by decide +kernel) hhint ?_ ?_).1 ?_
  · decide +kernel
  · decide +kernel
  · decide +kernel

/-- After the comment there is a hint too, but the word is lost. -/
theorem hintShell_commented :
    (wordsOf " \t\r\n" "log # a").length < ({} : LineRules).maxWords ∧
      (hintShell.hintFor {} ⟨0⟩ "log # a").value = some " <name>  <text>" ∧
      IsWord (isDelimiter " \t\r\n") "b".toList ∧ ¬ LineRules.Marks {} "b" ∧
      (LineRules.tokenize {} ("log # a".push ' ' ++ "b")).value ≠
        (LineRules.tokenize {} "log # a").value ++ ["b"] := by
  decide +kernel

end Store

end CommandShell
