import CommandShell.Proofs.Line.Descent
import CommandShell.Proofs.Line.Fields

/-!
# Completed lines lead to the keyword

A completed line consists of the words that lead to the command where the line stood, and of
one keyword of its sub-commands.  So the words of the completed line lead to this
sub-command, and completing it once more offers everything that is registered there.

This needs the line to be cut where the word to be completed begins: what is kept then has
the words before it, and a word can be put after them.
-/

namespace CommandShell

/-! ## The words of a line that count -/

namespace LineRules

variable {rules : LineRules} {line : String}

theorem value_split (rules : LineRules) (line : String) :
    (rules.split line).value =
      if rules.maxWords < (wordsOf rules.delimiters line).length then
        capped rules.maxWords (wordsOf rules.delimiters line)
      else wordsOf rules.delimiters line := by
  rw [split]
  split <;> rfl

/-- The limit cuts the words at the end, unless it is negative. -/
theorem value_split_of_nonneg (h : 0 ≤ rules.maxWords) (line : String) :
    (rules.split line).value = (wordsOf rules.delimiters line).take rules.maxWords.toNat := by
  rw [value_split, capped]
  split_ifs with hmany
  · rfl
  · rw [List.take_of_length_le]
    omega

theorem split_prefix_wordsOf (rules : LineRules) (line : String) :
    (rules.split line).value <+: wordsOf rules.delimiters line := by
  rw [value_split, capped]
  split_ifs
  · exact List.take_prefix _ _
  · exact List.take_prefix _ _
  · exact List.prefix_rfl

/-- No word is dropped if the line has no more than it may have. -/
theorem split_eq (h : (wordsOf rules.delimiters line).length ≤ rules.maxWords) :
    (rules.split line).value = wordsOf rules.delimiters line := by
  rw [value_split, if_neg (Int.not_lt.2 h)]

/-- No word was dropped if there are fewer than there may be. -/
theorem split_eq_of_length_lt (h : (rules.split line).value.length < rules.maxWords) :
    (rules.split line).value = wordsOf rules.delimiters line := by
  refine split_eq (Int.not_lt.1 fun hmany => ?_)
  rw [value_split, if_pos hmany, capped, if_pos (by omega), List.length_take] at h
  omega

theorem value_stripComment (rules : LineRules) (words : List String) :
    (rules.stripComment words).value = words.takeWhile (!rules.isComment ·) := by
  rw [stripComment]
  dsimp only
  split <;> rfl

/-- The words that count are words of the line, so none of them is empty. -/
theorem ne_empty_of_mem_tokenize {word : String} (h : word ∈ (rules.tokenize line).value) :
    word ≠ "" := by
  rw [tokenize, Noted.value_bind, value_stripComment] at h
  have hword := (rules.split_prefix_wordsOf line).subset ((List.takeWhile_prefix _).subset h)
  rw [wordsOf_eq, List.mem_map] at hword
  obtain ⟨letters, hletters, rfl⟩ := hword
  simpa using (isWord_of_mem_fields hletters).ne_nil

/-- Nothing is dropped exactly if no word starts a comment. -/
theorem length_stripComment_eq_iff {words : List String} :
    (rules.stripComment words).value.length = words.length ↔
      ∀ word ∈ words, rules.isComment word = false := by
  rw [value_stripComment]
  constructor
  · intro h word hword
    have hall := (List.takeWhile_prefix (p := (!rules.isComment ·)) (l := words)).eq_of_length h
    rw [← hall] at hword
    simpa using List.mem_takeWhile_imp hword
  · intro h
    rw [List.takeWhile_eq_self_iff.2 fun word hword => by simp [h word hword]]

end LineRules

namespace Store

variable {s : Store} {rules : LineRules} {root : CommandId} {line : String}

/-! ## The answer -/

/-- Words that start no comment are completed by what is registered where they stand. -/
theorem complete_of_words (hwords : (rules.split line).value ≠ [])
    (hcomment : ∀ word ∈ (rules.split line).value, rules.isComment word = false)
    {r : Resolution} (hr : (s.resolve root (rules.split line).value
      (endsWithDelimiter rules.delimiters line)).value = r) :
    (s.complete rules root line).value =
      (s.startingWith r.node r.start?).value.map fun found => ⟨r, found⟩ := by
  have hkept := LineRules.length_stripComment_eq_iff.2 hcomment
  subst hr
  rw [complete, Noted.value_bind, if_neg (by simpa using hwords), Noted.value_bind,
    if_neg (by simpa using hkept), Noted.value_bind, Noted.value_bind]
  cases (s.startingWith _ _).value <;> rfl

/-- There is no answer for other lines. -/
theorem words_of_complete {completion : Completion}
    (h : (s.complete rules root line).value = some completion) :
    (rules.split line).value ≠ [] ∧
      ∀ word ∈ (rules.split line).value, rules.isComment word = false := by
  rw [← LineRules.length_stripComment_eq_iff]
  by_contra hnone
  rw [complete, Noted.value_bind] at h
  split_ifs at h with hempty
  · cases h
  rw [Noted.value_bind] at h
  split_ifs at h with hkept
  · cases h
  · exact hnone ⟨by simpa using hempty, not_not.1 hkept⟩

/-! ## Cutting the line -/

/-- The line up to the word to be completed has the words before it, and no word goes on
after it.  What was typed of the word follows. -/
theorem exists_cut {n : Nat} {start : String}
    (h : (wordsOf rules.delimiters line)[n]? = some start ∨
      n = (wordsOf rules.delimiters line).length ∧
        endsWithDelimiter rules.delimiters line = true ∧ start = "") :
    ∃ before rest, line.toList = before ++ rest ∧ insertionPoint rules line n = before.length ∧
      Closes (isDelimiter rules.delimiters) before ∧
      (fields (isDelimiter rules.delimiters) before).map String.ofList =
        (wordsOf rules.delimiters line).take n ∧
      start.toList <+: rest := by
  obtain hword | ⟨rfl, hends, rfl⟩ := h
  · rw [wordsOf, List.getElem?_map, Option.map_eq_some_iff] at hword
    obtain ⟨span, hspan, rfl⟩ := hword
    obtain ⟨before, word, after, hline, rfl, hbefore, hword, hafter, hn⟩ := exists_of_spans hspan
    have hfields : (wordsOf rules.delimiters line).take n =
        (fields (isDelimiter rules.delimiters) before).map String.ofList := by
      rw [wordsOf_eq, hline, fields_append (.inl hbefore), List.map_append,
        List.take_left' (by rw [List.length_map, hn])]
    refine ⟨before, word ++ after, hline, ?_, hbefore, hfields.symm, ?_⟩
    · rw [insertionPoint, hspan]
      simp
    · simp [Span.cut, hline, List.take_append]
  · refine ⟨line.toList, [], by simp, ?_, ?_, ?_, by simp⟩
    · have hend :
          (spans rules.delimiters line)[(wordsOf rules.delimiters line).length]? = none := by
        simp [wordsOf]
      rw [insertionPoint, hend, String.length_toList]
      rfl
    · intro c hc
      rw [endsWithDelimiter, Option.mem_def.1 hc] at hends
      exact hends
    · rw [← wordsOf_eq, List.take_length]

/-- A word after a text that no word goes on from. -/
theorem wordsOf_append_word {delimiters keyword : String} {before : List Char} {d : Char}
    (hbefore : Closes (isDelimiter delimiters) before)
    (hkeyword : IsWord (isDelimiter delimiters) keyword.toList)
    (hd : isDelimiter delimiters d = true) :
    wordsOf delimiters (String.ofList before ++ keyword.push d) =
      (fields (isDelimiter delimiters) before).map String.ofList ++ [keyword] := by
  rw [wordsOf_eq, String.toList_append, String.toList_ofList, String.toList_push,
    fields_append (.inl hbefore), fields_singleton hkeyword hd, List.map_append, List.map_singleton,
    String.ofList_toList]

theorem endsWithDelimiter_push {delimiters : String} {d : Char}
    (hd : isDelimiter delimiters d = true) (before keyword : String) :
    endsWithDelimiter delimiters (before ++ keyword.push d) = true := by
  simp [endsWithDelimiter, hd]

/-- Each keyword that fits makes a line, ended by the first delimiter. -/
theorem value_completeLine {completion : Completion} {d : Char} {ds : List Char}
    (hd : rules.delimiters.toList = d :: ds)
    (h : (s.complete rules root line).value = some completion) :
    (s.completeLine rules root line).value =
      .ok (completion.found.keywords.map fun keyword =>
        String.ofList (line.toList.take
          (insertionPoint rules line completion.resolution.nest)) ++ keyword.push d) := by
  rw [completeLine, Noted.value_bind, candidates, Noted.value_bind, h]
  have hended : ∀ keyword, ended rules keyword = .ok (keyword.push d) := by
    intro keyword
    rw [ended, hd]
  simp only [Noted.value_pure, hended]
  exact List.mapM_pure

/-! ## Completed lines -/

/-- A line completed by the keyword of the sub-command `child`, where `start` was typed.  What stood
before the word, and what was typed of it, is kept; its words are those that led to the command,
and then the keyword.  All of them match, and the line is completed next by what is registered
under the sub-command. -/
structure Completed (s : Store) (rules : LineRules) (root : CommandId) (line : String)
    (r : Resolution) (start keyword completed : String) (child : CommandId) : Prop where
  named : ∀ other, (other ∈ s.subcommands r.node ∧ s.keyword other = keyword) ↔ other = child
  words : (rules.split completed).value =
    (wordsOf rules.delimiters line).take r.nest ++ [keyword]
  descent : ∃ path, path.length = r.nest + 1 ∧
    (s.descend root (rules.split completed).value).value = path ++ [child]
  kept : line.toList.take (insertionPoint rules line r.nest) ++ start.toList <+: line.toList ∧
    line.toList.take (insertionPoint rules line r.nest) ++ start.toList <+: completed.toList
  resolved : (s.resolve root (rules.split completed).value
    (endsWithDelimiter rules.delimiters completed)).value = ⟨child, r.nest + 1, some ""⟩
  again : (s.complete rules root completed).value =
    if (s.subcommands child).isEmpty then none
    else some ⟨⟨child, r.nest + 1, some ""⟩, (s.subcommands child).map s.keyword,
      (((s.subcommands child).map s.keyword).map String.length).foldl max 0⟩

/-- Where a line with an answer stands.  Its first words lead to the command, and `start` is
what was typed of the next one. -/
structure Standing (s : Store) (rules : LineRules) (root : CommandId) (line : String)
    (r : Resolution) (start : String) : Prop where
  walk : ∃ path, s.Walk root ((wordsOf rules.delimiters line).take r.nest) path r.node
  quiet : ∀ word ∈ (wordsOf rules.delimiters line).take r.nest, rules.isComment word = false
  next : (wordsOf rules.delimiters line)[r.nest]? = some start ∨
    r.nest = (wordsOf rules.delimiters line).length ∧
      endsWithDelimiter rules.delimiters line = true ∧ start = ""

theorem Standing.length_take {r : Resolution} {start : String}
    (h : s.Standing rules root line r start) :
    ((wordsOf rules.delimiters line).take r.nest).length = r.nest := by
  rw [List.length_take, min_eq_left]
  obtain hword | ⟨hall, -⟩ := h.next
  · exact (List.getElem?_eq_some_iff.1 hword).1.le
  · exact hall.le

theorem standing_of_complete {completion : Completion}
    (h : (s.complete rules root line).value = some completion)
    (hnest : completion.resolution.nest < rules.maxWords) :
    ∃ start, completion.resolution.start? = some start ∧
      s.Standing rules root line completion.resolution start ∧
      (s.startingWith completion.resolution.node (some start)).value =
        some completion.found := by
  obtain ⟨hwords, hcomment⟩ := words_of_complete h
  rw [complete_of_words hwords hcomment rfl, Option.map_eq_some_iff] at h
  obtain ⟨found, hfound, rfl⟩ := h
  obtain ⟨start, path, hstart, hwalk, hnext⟩ := s.resolve_spec root hwords _ rfl
  dsimp only at hnest ⊢
  rw [hstart] at hfound
  generalize (s.resolve root _ _).value = r at *
  -- What was split off is the beginning of the words of the line, and it reaches up to `start`.
  obtain ⟨dropped, hsplit⟩ := rules.split_prefix_wordsOf line
  have htake : (rules.split line).value.take r.nest =
      (wordsOf rules.delimiters line).take r.nest := by
    rw [← hsplit, List.take_append_of_le_length]
    obtain hword | ⟨hall, -⟩ := hnext
    · exact (List.getElem?_eq_some_iff.1 hword).1.le
    · exact hall.le
  refine ⟨start, hstart, ⟨⟨path, htake ▸ hwalk⟩, ?_, ?_⟩, hfound⟩
  · intro word hword
    rw [← htake] at hword
    exact hcomment word (List.mem_of_mem_take hword)
  · obtain hword | ⟨hall, hends, hnothing⟩ := hnext
    · refine .inl ?_
      rw [← hsplit, List.getElem?_append_left (List.getElem?_eq_some_iff.1 hword).1, hword]
    · -- All words were followed, and they are fewer than there may be.
      rw [LineRules.split_eq_of_length_lt (hall ▸ hnest)] at hall
      exact .inr ⟨hall, hends, hnothing⟩

/-- Words that can all be followed, before a delimiter, are completed by everything that is
registered where they lead. -/
theorem Walk.complete_eq {child : CommandId} {words : List String} {path : List CommandId}
    (hwalk : s.Walk root words path child) (hwords : (rules.split line).value = words)
    (hne : words ≠ []) (hcomment : ∀ word ∈ words, rules.isComment word = false)
    (hends : endsWithDelimiter rules.delimiters line = true) :
    (s.complete rules root line).value =
      if (s.subcommands child).isEmpty then none
      else some ⟨⟨child, words.length, some ""⟩, (s.subcommands child).map s.keyword,
        (((s.subcommands child).map s.keyword).map String.length).foldl max 0⟩ := by
  subst hwords
  have hr := hwalk.resolve_eq hne
  rw [← hends] at hr
  have hall : ((s.subcommands child).map s.keyword).filter (startsWith "") =
      (s.subcommands child).map s.keyword :=
    List.filter_eq_self.2 fun _ _ => rfl
  rw [complete_of_words hne hcomment hr, value_startingWith]
  dsimp only [Option.bind_some]
  rw [hall]
  split_ifs <;> rfl

/-- The keyword of a sub-command, put where the next word begins and ended by a delimiter,
completes the line. -/
theorem WellNamed.completed (hnamed : s.WellNamed root) {d : Char}
    (hd : isDelimiter rules.delimiters d = true) {r : Resolution} {start keyword : String}
    (hstanding : s.Standing rules root line r start) (hnest : r.nest < rules.maxWords)
    {child : CommandId} (hchild : child ∈ s.subcommands r.node) (hname : s.keyword child = keyword)
    (hstarts : startsWith start keyword = true)
    (hfree : ∀ c ∈ keyword.toList, isDelimiter rules.delimiters c = false)
    (hmark : rules.isComment keyword = false) :
    s.Completed rules root line r start keyword
      (String.ofList (line.toList.take (insertionPoint rules line r.nest)) ++ keyword.push d)
      child := by
  obtain ⟨path, hwalk⟩ := hstanding.walk
  obtain ⟨before, rest, hline, hpoint, hbefore, hfields, hrest⟩ := exists_cut hstanding.next
  have hcut : line.toList.take (insertionPoint rules line r.nest) = before := by
    rw [hline, hpoint, List.take_left]
  have hword : IsWord (isDelimiter rules.delimiters) keyword.toList := by
    refine ⟨mt String.toList_eq_nil_iff.1 ?_, hfree⟩
    exact hname ▸ (hnamed r.node hwalk.descends).1 child hchild
  have hends := endsWithDelimiter_push hd (String.ofList before) keyword
  -- The new line has the words that led to the command and one more, within the limit.
  have hlength : ((wordsOf rules.delimiters line).take r.nest ++ [keyword]).length =
      r.nest + 1 := by
    rw [List.length_append, hstanding.length_take, List.length_singleton]
  have hwords : (rules.split (String.ofList before ++ keyword.push d)).value =
      (wordsOf rules.delimiters line).take r.nest ++ [keyword] := by
    have hall := wordsOf_append_word hbefore hword hd
    rw [hfields] at hall
    rw [LineRules.split_eq, hall]
    rw [hall, hlength]
    omega
  -- They lead to the sub-command, which is the only one with the keyword.
  have hfind := (hnamed.find_eq_some_iff hwalk.descends).2 ⟨hchild, hname⟩
  have hwalk' := hwalk.concat hfind
  have hcomment : ∀ word ∈ (wordsOf rules.delimiters line).take r.nest ++ [keyword],
      rules.isComment word = false := by
    intro word hmem
    obtain hmem | hmem := List.mem_append.1 hmem
    · exact hstanding.quiet word hmem
    · exact List.mem_singleton.1 hmem ▸ hmark
  rw [hcut]
  constructor
  case named =>
    intro other
    rw [← hnamed.find_eq_some_iff hwalk.descends, hfind, Option.some_inj, eq_comm]
  case words => exact hwords
  case descent =>
    rw [hwords]
    exact ⟨_, hwalk'.length_eq.trans hlength, hwalk'.descend_eq⟩
  case kept =>
    obtain ⟨others, hothers⟩ := List.isPrefixOf_iff_prefix.1 hstarts
    constructor
    · rw [hcut, hline]
      exact List.prefix_append_right_inj before |>.2 hrest
    · rw [hcut, String.toList_append, String.toList_ofList, String.toList_push, ← hothers]
      simp
  case resolved =>
    rw [hwords, hends, hwalk'.resolve_eq (by simp), hlength]
  case again =>
    rw [hwalk'.complete_eq hwords (by simp) hcomment hends, hlength]

/-- Every line that is offered is completed: its words lead to the sub-command whose keyword
it was completed by.  Keywords that could not be typed as one word are left out. -/
theorem completeLine_completed (hnamed : s.WellNamed root) (hdelimiters : rules.delimiters ≠ "")
    {completion : Completion} (h : (s.complete rules root line).value = some completion)
    (hnest : completion.resolution.nest < rules.maxWords) :
    ∃ start lines, completion.resolution.start? = some start ∧
      (s.completeLine rules root line).value = .ok lines ∧
      List.Forall₂ (fun keyword completed =>
        (∀ c ∈ keyword.toList, isDelimiter rules.delimiters c = false) →
        rules.isComment keyword = false →
        ∃ child, s.Completed rules root line completion.resolution start keyword completed child)
        completion.found.keywords lines := by
  obtain ⟨start, hstart, hstanding, hfound⟩ := standing_of_complete h hnest
  obtain ⟨d, ds, hd⟩ := List.exists_cons_of_ne_nil (mt String.toList_eq_nil_iff.1 hdelimiters)
  refine ⟨start, _, hstart, value_completeLine hd h, List.forall₂_map_right_iff.2 ?_⟩
  rw [List.forall₂_same]
  intro keyword hkeyword hfree hmark
  obtain ⟨⟨child, hchild, hname⟩, hstarts⟩ := (mem_startingWith hfound).1 hkeyword
  exact ⟨child, hnamed.completed (by simp [isDelimiter, hd]) hstanding hnest hchild hname hstarts
    hfree hmark⟩

/-- The shell of the example below: `log level`, `log leave now` and `log le ft`. -/
def logShell : Store where
  commands := [{ children := some (.owned ⟨0⟩) },
    { keyword := "log", children := some (.owned ⟨1⟩) }, { keyword := "level" },
    { keyword := "leave", children := some (.owned ⟨2⟩) }, { keyword := "now" },
    { keyword := "le ft" }]
  registries := [{ items := [⟨1⟩] }, { items := [⟨2⟩, ⟨3⟩, ⟨5⟩] }, { items := [⟨4⟩] }]

/-- The second of two words is completed; the third is beyond the limit, and dropped. -/
theorem logShell_completed :
    logShell.WellNamed ⟨0⟩ ∧
      (logShell.complete { maxWords := 2 } ⟨0⟩ "\tlog le x").value =
        some ⟨⟨⟨1⟩, 1, some "le"⟩, ["level", "leave", "le ft"], 5⟩ ∧
      logShell.Completed { maxWords := 2 } ⟨0⟩ "\tlog le x" ⟨⟨1⟩, 1, some "le"⟩ "le" "leave"
        "\tlog leave " ⟨3⟩ := by
  have hnamed : logShell.WellNamed ⟨0⟩ := wellNamed_of_registries _ (by decide +kernel)
  have hcomplete : (logShell.complete { maxWords := 2 } ⟨0⟩ "\tlog le x").value =
      some ⟨⟨⟨1⟩, 1, some "le"⟩, ["level", "leave", "le ft"], 5⟩ := by decide +kernel
  refine ⟨hnamed, hcomplete, ?_⟩
  obtain ⟨start, lines, hstart, hlines, hall⟩ :=
    completeLine_completed hnamed (by decide) hcomplete (by decide)
  cases hstart
  cases hlines
  have hfree : ("leave".toList.all fun c => !isDelimiter " \t\r\n" c) = true := by decide +kernel
  obtain ⟨child, hchild⟩ := (List.forall₂_cons.1 (List.forall₂_cons.1 hall).2).1
    (fun c hc => by simpa using List.all_eq_true.1 hfree c hc) (by decide +kernel)
  obtain rfl := (hchild.named ⟨3⟩).1 (by decide +kernel)
  exact hchild

end Store

end CommandShell
