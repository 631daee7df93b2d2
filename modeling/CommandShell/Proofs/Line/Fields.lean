import CommandShell.Words
import Mathlib.Data.List.TakeWhile
import Mathlib.Tactic.SplitIfs

/-!
# Lines as gaps and words

A text is a sequence of delimiters and of words, each word as long as it can be.  The scan
for the spans of its words follows this shape: it skips a delimiter, and it takes a word as
a whole.  So two texts can be put together, or one cut in two, wherever no word is cut, and
their words follow each other.
-/

namespace CommandShell

variable {delimiter : Char → Bool}

/-- A word: something without delimiters. -/
structure IsWord (delimiter : Char → Bool) (word : List Char) : Prop where
  ne_nil : word ≠ []
  free : ∀ c ∈ word, delimiter c = false

/-- No word goes on into the text: it is empty or begins with a delimiter. -/
def Breaks (delimiter : Char → Bool) (text : List Char) : Prop :=
  ∀ c ∈ text.head?, delimiter c = true

/-- No word goes on after the text: it is empty or ends with a delimiter. -/
def Closes (delimiter : Char → Bool) (text : List Char) : Prop :=
  ∀ c ∈ text.getLast?, delimiter c = true

theorem breaks_append {first second : List Char} :
    Breaks delimiter (first ++ second) ↔
      Breaks delimiter first ∧ (first = [] → Breaks delimiter second) := by
  cases first <;> simp [Breaks]

theorem closes_append {first second : List Char} :
    Closes delimiter (first ++ second) ↔
      Closes delimiter second ∧ (second = [] → Closes delimiter first) := by
  obtain rfl | ⟨front, last, rfl⟩ := List.eq_nil_or_concat second
  · simp [Closes]
  · simp [Closes, ← List.append_assoc]

theorem closes_cons {c : Char} {rest : List Char} :
    Closes delimiter (c :: rest) ↔
      Closes delimiter rest ∧ (rest = [] → delimiter c = true) := by
  rw [← List.singleton_append, closes_append]
  simp [Closes]

/-- A text cannot end both with a word and with a delimiter. -/
theorem IsWord.not_closes {word : List Char} (h : IsWord delimiter word) :
    ¬ Closes delimiter word := by
  intro hcloses
  have hlast := hcloses _ (List.getLast?_eq_some_getLast h.ne_nil)
  rw [h.free _ (List.getLast_mem h.ne_nil)] at hlast
  cases hlast

theorem IsWord.not_breaks_append {word : List Char} (h : IsWord delimiter word)
    (rest : List Char) : ¬ Breaks delimiter (word ++ rest) := by
  intro hbreaks
  have hfirst := hbreaks (word.head h.ne_nil) (by simp [List.head?_eq_some_head h.ne_nil])
  rw [h.free _ (List.head_mem h.ne_nil)] at hfirst
  cases hfirst

/-! ## Induction over gaps and words -/

/-- A text is empty, or a delimiter and a text, or a word and a text into which it does not
go on. -/
theorem text_induction (delimiter : Char → Bool) {motive : List Char → Prop} (nil : motive [])
    (gap : ∀ c rest, delimiter c = true → motive rest → motive (c :: rest))
    (word : ∀ word rest, IsWord delimiter word → Breaks delimiter rest → motive rest →
      motive (word ++ rest)) (text : List Char) : motive text := by
  induction hn : text.length using Nat.strongRecOn generalizing text with
  | ind n ih =>
    cases text with
    | nil => exact nil
    | cons c rest =>
      by_cases hc : delimiter c = true
      · exact gap c rest hc (ih rest.length (by simp [← hn]) rest rfl)
      · -- The word takes everything up to the next delimiter.
        have hsplit := List.takeWhile_append_dropWhile (p := fun c => !delimiter c) (l := c :: rest)
        rw [← hsplit]
        refine word _ _ ⟨by simp [hc], ?_⟩ ?_ (ih _ ?_ _ rfl)
        · intro d hd
          simpa using List.mem_takeWhile_imp hd
        · intro d hd
          have := List.head?_dropWhile_not (fun c => !delimiter c) (c :: rest)
          rw [Option.mem_def.1 hd] at this
          simpa using this
        · have hlt : ((c :: rest).dropWhile fun c => !delimiter c).length ≤ rest.length := by
            rw [List.dropWhile_cons_of_pos (by simp [hc])]
            exact List.length_dropWhile_le _ _
          rw [← hn, List.length_cons]
          omega

/-! ## The scan -/

theorem spansFrom_gap {c : Char} (hc : delimiter c = true) (position : Nat) (rest : List Char) :
    spansFrom delimiter position none (c :: rest) =
      spansFrom delimiter (position + 1) none rest := by
  simp [spansFrom, hc]

/-- Within a word that is open the scan only moves on. -/
theorem spansFrom_open {word : List Char} (hfree : ∀ c ∈ word, delimiter c = false)
    (position start : Nat) (rest : List Char) :
    spansFrom delimiter position (some start) (word ++ rest) =
      spansFrom delimiter (position + word.length) (some start) rest := by
  induction word generalizing position with
  | nil => rfl
  | cons c word ih =>
    have hc := hfree c (by simp)
    rw [List.cons_append, spansFrom, if_neg (by simp [hc]), Option.getD_some,
      ih (fun d hd => hfree d (by simp [hd])), List.length_cons]
    congr 1
    omega

theorem spansFrom_word {word rest : List Char} (hword : IsWord delimiter word)
    (hrest : Breaks delimiter rest) (position : Nat) :
    spansFrom delimiter position none (word ++ rest) =
      ⟨position, position + word.length⟩ ::
        spansFrom delimiter (position + word.length) none rest := by
  have hopen : spansFrom delimiter position none (word ++ rest) =
      spansFrom delimiter position (some position) (word ++ rest) := by
    obtain ⟨c, word', rfl⟩ := List.exists_cons_of_ne_nil hword.ne_nil
    simp [spansFrom, hword.free c (by simp)]
  rw [hopen, spansFrom_open hword.free]
  cases rest with
  | nil => rfl
  | cons d rest =>
    have hd := hrest d rfl
    simp [spansFrom, hd]

/-- The span further to the right by `k` characters. -/
def Span.shift (k : Nat) (s : Span) : Span := ⟨k + s.start, k + s.stop⟩

/-- The scan does not depend on where the text stands. -/
theorem spansFrom_shift (delimiter : Char → Bool) (k position : Nat) (open? : Option Nat)
    (text : List Char) :
    spansFrom delimiter (k + position) (open?.map (k + ·)) text =
      (spansFrom delimiter position open? text).map (Span.shift k) := by
  induction text generalizing position open? with
  | nil => cases open? <;> rfl
  | cons c rest ih =>
    have hnone := ih (position + 1) none
    have hsome := ih (position + 1) (some (open?.getD position))
    cases open? <;> by_cases hc : delimiter c = true <;>
      simp_all [spansFrom, Nat.add_assoc, Span.shift]

/-! ## The words -/

/-- The words of a text, as lists of characters. -/
def fields (delimiter : Char → Bool) (text : List Char) : List (List Char) :=
  (spansFrom delimiter 0 none text).map fun s => (text.take s.stop).drop s.start

theorem wordsOf_eq (delimiters line : String) :
    wordsOf delimiters line =
      (fields (isDelimiter delimiters) line.toList).map String.ofList := by
  rw [wordsOf, spans, fields, List.map_map]
  rfl

/-- The words of the second part of a text, by the spans that they have in the whole. -/
theorem fields_eq_of_shift (before text : List Char) :
    (spansFrom delimiter before.length none text).map
        (fun s => ((before ++ text).take s.stop).drop s.start) = fields delimiter text := by
  have hshift := spansFrom_shift delimiter before.length 0 none text
  rw [Nat.add_zero, Option.map_none] at hshift
  rw [hshift, List.map_map, fields]
  refine List.map_congr_left fun s _ => ?_
  simp [Span.shift, List.take_append, List.drop_append]

@[simp] theorem fields_nil : fields delimiter [] = [] := rfl

theorem fields_gap {c : Char} (hc : delimiter c = true) (rest : List Char) :
    fields delimiter (c :: rest) = fields delimiter rest := by
  rw [fields, spansFrom_gap hc]
  exact fields_eq_of_shift [c] rest

theorem fields_word {word rest : List Char} (hword : IsWord delimiter word)
    (hrest : Breaks delimiter rest) :
    fields delimiter (word ++ rest) = word :: fields delimiter rest := by
  rw [fields, spansFrom_word hword hrest, List.map_cons, Nat.zero_add]
  refine congrArg₂ List.cons ?_ (fields_eq_of_shift word rest)
  simp

theorem isWord_of_mem_fields {text word : List Char} (h : word ∈ fields delimiter text) :
    IsWord delimiter word := by
  induction text using text_induction delimiter with
  | nil => cases h
  | gap c rest hc ih =>
    rw [fields_gap hc] at h
    exact ih h
  | word first rest hfirst hrest ih =>
    rw [fields_word hfirst hrest, List.mem_cons] at h
    obtain rfl | h := h
    · exact hfirst
    · exact ih h

/-! ## Putting texts together -/

/-- Where no word is cut, the words of two texts follow each other. -/
theorem fields_append {first second : List Char}
    (h : Closes delimiter first ∨ Breaks delimiter second) :
    fields delimiter (first ++ second) = fields delimiter first ++ fields delimiter second := by
  induction first using text_induction delimiter with
  | nil => rfl
  | gap c rest hc ih =>
    rw [List.cons_append, fields_gap hc, fields_gap hc, ih]
    exact h.imp_left fun hcloses => (closes_cons.1 hcloses).1
  | word word rest hword hrest ih =>
    -- If the first text ends with the word, the gap is on the other side.
    have hbreaks : Breaks delimiter (rest ++ second) := by
      refine breaks_append.2 ⟨hrest, ?_⟩
      rintro rfl
      obtain hcloses | hsecond := h
      · exact absurd ((closes_append.1 hcloses).2 rfl) hword.not_closes
      · exact hsecond
    rw [List.append_assoc, fields_word hword hbreaks, fields_word hword hrest, ih, List.cons_append]
    exact h.imp_left fun hcloses => (closes_append.1 hcloses).1

theorem fields_singleton {word : List Char} (hword : IsWord delimiter word) {d : Char}
    (hd : delimiter d = true) : fields delimiter (word ++ [d]) = [word] := by
  rw [fields_word hword (by simpa [Breaks] using hd), fields_gap hd, fields_nil]

/-! ## Cutting a text at a word -/

/-- The text before, in and after the word that has a span. -/
theorem exists_of_spans {text : List Char} {n position : Nat} {span : Span}
    (h : (spansFrom delimiter position none text)[n]? = some span) :
    ∃ before word after, text = before ++ (word ++ after) ∧
      span = ⟨position + before.length, position + before.length + word.length⟩ ∧
      Closes delimiter before ∧ IsWord delimiter word ∧ Breaks delimiter after ∧
      (fields delimiter before).length = n := by
  induction text using text_induction delimiter generalizing n position with
  | nil => simp [spansFrom] at h
  | gap c rest hc ih =>
    rw [spansFrom_gap hc] at h
    obtain ⟨before, word, after, rfl, rfl, hbefore, hword, hafter, hn⟩ := ih h
    refine ⟨c :: before, word, after, rfl, ?_, ?_, hword, hafter, ?_⟩
    · simp only [List.length_cons, Span.mk.injEq]
      omega
    · exact closes_cons.2 ⟨hbefore, fun _ => hc⟩
    · rw [fields_gap hc, hn]
  | word word rest hword hrest ih =>
    rw [spansFrom_word hword hrest] at h
    cases n with
    | zero =>
      refine ⟨[], word, rest, rfl, ?_, by simp [Closes], hword, hrest, rfl⟩
      simpa using h.symm
    | succ n =>
      rw [List.getElem?_cons_succ] at h
      obtain ⟨before, next, after, rfl, rfl, hbefore, hnext, hafter, hn⟩ := ih h
      obtain ⟨hbreaks, hnil⟩ := breaks_append.1 hrest
      -- Between two words there is a gap.
      have hgap : before ≠ [] := fun h => hnext.not_breaks_append after (hnil h)
      refine ⟨word ++ before, next, after, by simp, ?_, ?_, hnext, hafter, ?_⟩
      · simp only [List.length_append, Span.mk.injEq]
        omega
      · exact closes_append.2 ⟨hbefore, fun h => absurd h hgap⟩
      · rw [fields_word hword hbreaks, List.length_cons, hn]

end CommandShell
