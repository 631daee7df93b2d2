import CommandShell.Proofs.Line.Completion
import CommandShell.Proofs.Line.Terminator

/-!
# Lines woven from words

A line can be made of any words: they are written one after the other, with delimiters
between them, and more delimiters wherever there is a gap.  Splitting the line gives these
words back.  Which of them count is decided by the limit and by the first comment; it does not
matter which of the two cuts the words first.
-/

namespace CommandShell

variable {delimiter : Char → Bool}

/-! ## Words and the gaps around them -/

/-- A text is made of words.  Before a word there may be delimiters; after it, the text ends or
goes on with a delimiter. -/
inductive Woven (delimiter : Char → Bool) : List (List Char) → List Char → Prop
  | gap {text : List Char} (hgap : ∀ c ∈ text, delimiter c = true) : Woven delimiter [] text
  | word {before word rest : List Char} {words : List (List Char)}
    (hbefore : ∀ c ∈ before, delimiter c = true) (hword : IsWord delimiter word)
    (hbreaks : Breaks delimiter rest) (hrest : Woven delimiter words rest) :
    Woven delimiter (word :: words) (before ++ (word ++ rest))

theorem closes_of_gap {text : List Char} (h : ∀ c ∈ text, delimiter c = true) :
    Closes delimiter text :=
  fun c hc => h c (List.mem_of_getLast? hc)

theorem Woven.cons {words : List (List Char)} {text : List Char} (h : Woven delimiter words text)
    {c : Char} (hc : delimiter c = true) : Woven delimiter words (c :: text) := by
  cases h with
  | gap hgap => exact .gap (List.forall_mem_cons.2 ⟨hc, hgap⟩)
  | word hbefore hword hbreaks hrest =>
    exact .word (List.forall_mem_cons.2 ⟨hc, hbefore⟩) hword hbreaks hrest

/-- **The words of a text are those that it is made of.** -/
theorem woven_iff {words : List (List Char)} {text : List Char} :
    Woven delimiter words text ↔ fields delimiter text = words := by
  constructor
  · intro h
    induction h with
    | gap hgap => exact fields_eq_nil hgap
    | word hbefore hword hbreaks hrest ih =>
      rw [fields_append (.inl (closes_of_gap hbefore)), fields_eq_nil hbefore, List.nil_append,
        fields_word hword hbreaks, ih]
  · rintro rfl
    induction text using text_induction delimiter with
    | nil => exact .gap (by simp)
    | gap c rest hc ih =>
      rw [fields_gap hc]
      exact ih.cons hc
    | word word rest hword hrest ih =>
      rw [fields_word hword hrest]
      have hnone : ∀ c ∈ ([] : List Char), delimiter c = true := by simp
      exact .word hnone hword hrest ih

instance (words : List (List Char)) (text : List Char) : Decidable (Woven delimiter words text) :=
  decidable_of_iff _ woven_iff.symm

instance (word : List Char) : Decidable (IsWord delimiter word) :=
  decidable_of_iff (word ≠ [] ∧ word.all (!delimiter ·) = true)
    ⟨fun h => ⟨h.1, by simpa using h.2⟩, fun h => ⟨h.ne_nil, by simpa using h.free⟩⟩

/-- A word may go on into what follows it, but there is always one that begins with it. -/
theorem exists_fields_append {word : List Char} (hword : IsWord delimiter word)
    (rest : List Char) :
    ∃ first others, fields delimiter (word ++ rest) = first :: others ∧ word <+: first := by
  induction rest using text_induction delimiter with
  | nil => exact ⟨word, _, fields_word hword (by simp [Breaks]), List.prefix_rfl⟩
  | gap c rest hc =>
    exact ⟨word, _, fields_word hword (by simpa [Breaks] using hc), List.prefix_rfl⟩
  | word next rest hnext hrest =>
    have hlonger : IsWord delimiter (word ++ next) := by
      refine ⟨by simp [hword.ne_nil], fun c hc => ?_⟩
      obtain hc | hc := List.mem_append.1 hc
      · exact hword.free c hc
      · exact hnext.free c hc
    rw [← List.append_assoc]
    exact ⟨word ++ next, _, fields_word hlonger hrest, List.prefix_append _ _⟩

theorem wordsOf_of_woven {delimiters line : String} {words : List String}
    (h : Woven (isDelimiter delimiters) (words.map String.toList) line.toList) :
    wordsOf delimiters line = words := by
  rw [wordsOf_eq, woven_iff.1 h, List.map_map]
  simp

/-- A delimiter after a line ends its last word. -/
theorem wordsOf_push_append {delimiters : String} {d : Char}
    (hd : isDelimiter delimiters d = true) (line rest : String) :
    wordsOf delimiters (line.push d ++ rest) =
      wordsOf delimiters line ++ wordsOf delimiters rest := by
  have hbreaks : Breaks (isDelimiter delimiters) (d :: rest.toList) := by
    simpa [Breaks] using hd
  have htext : (line.push d ++ rest).toList = line.toList ++ d :: rest.toList := by simp
  rw [wordsOf_eq, wordsOf_eq, wordsOf_eq, htext, fields_append (.inr hbreaks), fields_gap hd,
    List.map_append]

theorem wordsOf_word {delimiters word : String} (h : IsWord (isDelimiter delimiters) word.toList) :
    wordsOf delimiters word = [word] := by
  have hbreaks : Breaks (isDelimiter delimiters) [] := by simp [Breaks]
  have hfields := fields_word h hbreaks
  rw [List.append_nil] at hfields
  simp [wordsOf_eq, hfields]

namespace LineRules

variable {rules : LineRules} {line : String}

/-! ## Comments -/

/-- There is a comment marker, and the word starts with it. -/
def Marks (rules : LineRules) (word : String) : Prop :=
  rules.comment ≠ "" ∧ rules.comment.toList <+: word.toList

theorem isComment_iff {word : String} : rules.isComment word = true ↔ rules.Marks word := by
  rw [isComment, Marks, Bool.and_eq_true, startsWith, List.isPrefixOf_iff_prefix]
  simp

instance (rules : LineRules) (word : String) : Decidable (rules.Marks word) :=
  decidable_of_iff _ isComment_iff

theorem isComment_eq_false_iff {word : String} :
    rules.isComment word = false ↔ ¬ rules.Marks word := by
  rw [← isComment_iff, Bool.not_eq_true]

/-- The longest beginning of a list of words in which no word starts a comment. -/
structure Uncommented (rules : LineRules) (words kept : List String) : Prop where
  begins : kept <+: words
  free : ∀ word ∈ kept, ¬ rules.Marks word
  longest : ∀ others, others <+: words → (∀ word ∈ others, ¬ rules.Marks word) → others <+: kept

theorem uncommented_stripComment (rules : LineRules) (words : List String) :
    rules.Uncommented words (rules.stripComment words).value := by
  rw [value_stripComment]
  refine ⟨List.takeWhile_prefix _, fun word hword => ?_, fun others hothers hfree => ?_⟩
  · rw [← isComment_eq_false_iff]
    simpa using List.mem_takeWhile_imp hword
  · obtain ⟨rest, rfl⟩ := hothers
    rw [List.takeWhile_append_of_pos fun word hword => by
      simp [isComment_eq_false_iff.2 (hfree word hword)]]
    exact List.prefix_append _ _

/-- The first of the words that start a comment. -/
theorem exists_first_comment {words : List String} (h : ∃ word ∈ words, rules.Marks word) :
    ∃ kept comment others, words = kept ++ comment :: others ∧
      (∀ word ∈ kept, ¬ rules.Marks word) ∧ rules.Marks comment := by
  obtain ⟨word, hword, hmarks⟩ := h
  have hsome : (words.find? rules.isComment).isSome :=
    List.find?_isSome.2 ⟨word, hword, isComment_iff.2 hmarks⟩
  obtain ⟨comment, hfind⟩ := Option.isSome_iff_exists.1 hsome
  obtain ⟨hcomment, kept, others, hsplit, hkept⟩ := List.find?_eq_some_iff_append.1 hfind
  refine ⟨kept, comment, others, hsplit, fun word hword => ?_, isComment_iff.1 hcomment⟩
  rw [← isComment_eq_false_iff]
  simpa using hkept word hword

/-! ## The words that count -/

/-- The limit and the comment cut the words in any order. -/
theorem stripComment_take (rules : LineRules) (words : List String) (n : Nat) :
    (rules.stripComment (words.take n)).value = (rules.stripComment words).value.take n := by
  rw [value_stripComment, value_stripComment, List.take_takeWhile]

theorem value_tokenize_of_nonneg (h : 0 ≤ rules.maxWords) (line : String) :
    (rules.tokenize line).value =
      (rules.stripComment (wordsOf rules.delimiters line)).value.take rules.maxWords.toNat := by
  rw [tokenize, Noted.value_bind, value_split_of_nonneg h, stripComment_take]

/-- Words before a comment, or before the end of the line, count as long as they are not too
many. -/
theorem tokenize_of_wordsOf {words others : List String}
    (hline : wordsOf rules.delimiters line = words ++ others)
    (hfew : words.length ≤ rules.maxWords) (hfree : ∀ word ∈ words, ¬ rules.Marks word)
    (hothers : ∀ word ∈ others.head?, rules.Marks word) :
    (rules.tokenize line).value = words := by
  have hstop : others.takeWhile (!rules.isComment ·) = [] := by
    cases others with
    | nil => rfl
    | cons word rest =>
      rw [List.takeWhile_cons_of_neg]
      simp [isComment_iff.2 (hothers word rfl)]
  have hgo : ∀ word ∈ words, (!rules.isComment word) = true := by
    intro word hword
    simp [isComment_eq_false_iff.2 (hfree word hword)]
  rw [value_tokenize_of_nonneg (by omega), hline, value_stripComment,
    List.takeWhile_append_of_pos hgo, hstop, List.append_nil, List.take_of_length_le (by omega)]

/-- All words count if none of them starts a comment and they are not too many. -/
theorem tokenize_eq_wordsOf (hfew : (wordsOf rules.delimiters line).length ≤ rules.maxWords)
    (hfree : ∀ word ∈ wordsOf rules.delimiters line, ¬ rules.Marks word) :
    (rules.tokenize line).value = wordsOf rules.delimiters line :=
  tokenize_of_wordsOf (List.append_nil _).symm hfew hfree (by simp)

/-- A word that starts with the marker starts a comment, whatever follows it. -/
theorem Marks.head_wordsOf {comment : String} (hmarks : rules.Marks comment)
    (hword : IsWord (isDelimiter rules.delimiters) comment.toList) (text : String) :
    ∀ word ∈ (wordsOf rules.delimiters (comment ++ text)).head?, rules.Marks word := by
  obtain ⟨first, others, hfields, hbegins⟩ := exists_fields_append hword text.toList
  intro word hmem
  rw [wordsOf_eq, String.toList_append, hfields] at hmem
  obtain rfl : String.ofList first = word := by simpa using hmem
  exact ⟨hmarks.1, by simpa using hmarks.2.trans hbegins⟩

/-- **Which words of a line count, and that they can be put back.**  They are the first ones, up
to the limit, of those before the first comment, and the comment may be cut off before the words
beyond the limit or after them.  A line that is made of words none of which starts a comment, no
more of them than the limit, has just these words; and it has them too if a delimiter, a word that
starts with the comment marker and any text follow. -/
theorem tokenize_woven (hlimit : 0 ≤ rules.maxWords) :
    (∀ line,
      rules.Uncommented (wordsOf rules.delimiters line)
        (rules.stripComment (wordsOf rules.delimiters line)).value ∧
      (rules.tokenize line).value =
        (rules.stripComment (wordsOf rules.delimiters line)).value.take rules.maxWords.toNat ∧
      (rules.tokenize line).value =
        (rules.stripComment
          ((wordsOf rules.delimiters line).take rules.maxWords.toNat)).value) ∧
    ∀ (words : List String) (line : String),
      Woven (isDelimiter rules.delimiters) (words.map String.toList) line.toList →
      words.length ≤ rules.maxWords → (∀ word ∈ words, ¬ rules.Marks word) →
      (rules.tokenize line).value = words ∧
      ∀ (d : Char) (comment text : String), isDelimiter rules.delimiters d = true →
        IsWord (isDelimiter rules.delimiters) comment.toList → rules.Marks comment →
        (rules.tokenize (line.push d ++ (comment ++ text))).value = words := by
  constructor
  · intro line
    refine ⟨uncommented_stripComment rules _, value_tokenize_of_nonneg hlimit line, ?_⟩
    rw [value_tokenize_of_nonneg hlimit, stripComment_take]
  · intro words line hwoven hfew hfree
    obtain rfl := wordsOf_of_woven hwoven
    refine ⟨tokenize_eq_wordsOf hfew hfree, fun d comment text hd hcomment hmarks => ?_⟩
    exact tokenize_of_wordsOf (wordsOf_push_append hd line (comment ++ text)) hfew hfree
      (hmarks.head_wordsOf hcomment text)

/-- Lines of two words at most, between blanks and commas. -/
def brief : LineRules where
  delimiters := " ,"
  comment := "//"
  maxWords := 2

/-- The limit is reached before the comment. -/
theorem brief_woven :
    Woven (isDelimiter brief.delimiters) (["log", "a/b"].map String.toList) ", log,a/b ".toList ∧
      (∀ word ∈ ["log", "a/b"], ¬ brief.Marks word) ∧ brief.Marks "//note" ∧
      (brief.tokenize (", log,a/b ".push ' ' ++ ("//note" ++ " x"))).value = ["log", "a/b"] := by
  have hwoven : Woven (isDelimiter brief.delimiters) (["log", "a/b"].map String.toList)
      ", log,a/b ".toList := by decide +kernel
  have hfree : ∀ word ∈ ["log", "a/b"], ¬ brief.Marks word := by decide +kernel
  have hmarks : brief.Marks "//note" := by decide +kernel
  have hword : IsWord (isDelimiter brief.delimiters) "//note".toList := by decide +kernel
  refine ⟨hwoven, hfree, hmarks, ?_⟩
  exact ((tokenize_woven (by decide)).2 _ _ hwoven (by decide) hfree).2 ' ' "//note" " x"
    (by decide) hword hmarks

end LineRules

end CommandShell
