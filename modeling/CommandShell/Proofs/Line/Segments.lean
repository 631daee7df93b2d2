import CommandShell.Proofs.Line.Fields
import Mathlib.Data.List.Sort

/-!
# Words are the longest segments without delimiters

A line is scanned once, with the start of the word that is open.  What comes out is fixed by
the line alone: the spans of the words are the segments of the line that hold no delimiter and
cannot be made longer, from left to right, each of them once.

## Main definitions

* `Span.Covers`, `DelimiterAt` — offsets of a text.
* `IsSegment` — a longest segment without delimiters.
* `Segmentation` — spans that divide a text into such segments.
-/

namespace CommandShell

variable {delimiter : Char → Bool} {text : List Char} {a b : Span} {i : Nat}

/-- The offset is one within the span. -/
def Span.Covers (a : Span) (i : Nat) : Prop := a.start ≤ i ∧ i < a.stop

/-- There is a delimiter at an offset of the text. -/
def DelimiterAt (delimiter : Char → Bool) (text : List Char) (i : Nat) : Prop :=
  ∃ c, text[i]? = some c ∧ delimiter c = true

/-- A part of the text that is not empty, holds no delimiter and cannot be made longer. -/
structure IsSegment (delimiter : Char → Bool) (text : List Char) (a : Span) : Prop where
  nonempty : a.start < a.stop
  within : a.stop ≤ text.length
  free : ∀ i, a.Covers i → ¬ DelimiterAt delimiter text i
  opened : a.start = 0 ∨ DelimiterAt delimiter text (a.start - 1)
  closed : a.stop = text.length ∨ DelimiterAt delimiter text a.stop

/-- The spans divide a text at its delimiters.  None of them is empty or ends outside the text; they
stand in order, with a delimiter or an end of the text on either side of each; and a character of
the text is in one of them just in case it is not a delimiter. -/
structure Segmentation (delimiter : Char → Bool) (text : List Char) (spans : List Span) :
    Prop where
  nonempty : ∀ a ∈ spans, a.start < a.stop
  within : ∀ a ∈ spans, a.stop ≤ text.length
  separated : spans.IsChain fun a b =>
    ∃ i, a.stop ≤ i ∧ i < b.start ∧ DelimiterAt delimiter text i
  covered : ∀ i c, text[i]? = some c → ((∃ a ∈ spans, a.Covers i) ↔ delimiter c = false)
  opened : ∀ a ∈ spans, a.start = 0 ∨ DelimiterAt delimiter text (a.start - 1)
  closed : ∀ a ∈ spans, a.stop = text.length ∨ DelimiterAt delimiter text a.stop

/-! ## There is only one division -/

/-- Of two segments that meet, neither begins before the other. -/
theorem IsSegment.start_le (ha : IsSegment delimiter text a) (hb : IsSegment delimiter text b)
    (hai : a.Covers i) (hbi : b.Covers i) : a.start ≤ b.start := by
  by_contra hlt
  have hbefore : b.Covers (a.start - 1) := by
    obtain ⟨hstart, -⟩ := hai
    obtain ⟨-, hstop⟩ := hbi
    constructor <;> omega
  obtain hzero | hdelimiter := ha.opened
  · omega
  · exact hb.free _ hbefore hdelimiter

theorem IsSegment.stop_le (ha : IsSegment delimiter text a) (hb : IsSegment delimiter text b)
    (hai : a.Covers i) (hbi : b.Covers i) : b.stop ≤ a.stop := by
  by_contra hlt
  have hafter : b.Covers a.stop := by
    obtain ⟨-, hstop⟩ := hai
    obtain ⟨hstart, -⟩ := hbi
    constructor <;> omega
  obtain hend | hdelimiter := ha.closed
  · have := hb.within
    omega
  · exact hb.free _ hafter hdelimiter

/-- Two segments that meet are the same. -/
theorem IsSegment.eq_of_covers (ha : IsSegment delimiter text a)
    (hb : IsSegment delimiter text b) (hai : a.Covers i) (hbi : b.Covers i) : a = b := by
  have hstart := Nat.le_antisymm (ha.start_le hb hai hbi) (hb.start_le ha hbi hai)
  have hstop := Nat.le_antisymm (hb.stop_le ha hbi hai) (ha.stop_le hb hai hbi)
  cases a
  cases b
  simp_all

namespace Segmentation

variable {spans others : List Span}

theorem isSegment (h : Segmentation delimiter text spans) (ha : a ∈ spans) :
    IsSegment delimiter text a where
  nonempty := h.nonempty a ha
  within := h.within a ha
  free i hi := by
    rintro ⟨c, hc, hdelimiter⟩
    have hfree := (h.covered i c hc).1 ⟨a, ha, hi⟩
    rw [hfree] at hdelimiter
    cases hdelimiter
  opened := h.opened a ha
  closed := h.closed a ha

/-- A division into segments has all of them. -/
theorem mem_iff (h : Segmentation delimiter text spans) :
    a ∈ spans ↔ IsSegment delimiter text a := by
  refine ⟨h.isSegment, fun ha => ?_⟩
  have hstart : a.Covers a.start := ⟨Nat.le_refl _, ha.nonempty⟩
  have hlt : a.start < text.length := Nat.lt_of_lt_of_le ha.nonempty ha.within
  have hget : text[a.start]? = some text[a.start] := List.getElem?_eq_getElem hlt
  have hfree : delimiter text[a.start] = false := by
    by_contra hdelimiter
    exact ha.free _ hstart ⟨_, hget, by simpa using hdelimiter⟩
  -- Its first character is in one of the spans, and the two meet there.
  obtain ⟨b, hb, hcovers⟩ := (h.covered _ _ hget).2 hfree
  rwa [ha.eq_of_covers (h.isSegment hb) hstart hcovers]

theorem pairwise (h : Segmentation delimiter text spans) :
    spans.Pairwise fun a b => a.start < b.start := by
  have hchain : spans.IsChain fun a b => a.start < b.start := by
    refine List.isChain_iff_getElem.2 fun i hi => ?_
    obtain ⟨j, hj, hj', -⟩ := List.isChain_iff_getElem.1 h.separated i hi
    have hnonempty := h.nonempty _ (List.getElem_mem (Nat.lt_of_succ_lt hi))
    omega
  exact List.isChain_iff_pairwise.1 hchain

/-- **A text is divided in one way only.** -/
theorem unique (h : Segmentation delimiter text spans) (h' : Segmentation delimiter text others) :
    spans = others :=
  h.pairwise.eq_of_mem_iff h'.pairwise fun _ => h.mem_iff.trans h'.mem_iff.symm

end Segmentation

/-! ## The scan finds it -/

/-- A span that the scan finds is that of a segment. -/
theorem isSegment_of_mem_spansFrom (h : a ∈ spansFrom delimiter 0 none text) :
    IsSegment delimiter text a := by
  obtain ⟨n, hn⟩ := List.mem_iff_getElem?.1 h
  obtain ⟨before, word, after, rfl, rfl, hbefore, hword, hafter, -⟩ := exists_of_spans hn
  have hpos : 0 < word.length := List.length_pos_iff.2 hword.ne_nil
  simp only [Nat.zero_add]
  refine ⟨?_, ?_, ?_, ?_, ?_⟩
  · change before.length < before.length + word.length
    omega
  · simp
  · rintro i ⟨hstart, hstop⟩ ⟨c, hc, hdelimiter⟩
    dsimp only at hstart hstop
    rw [List.getElem?_append_right hstart, List.getElem?_append_left (by omega)] at hc
    rw [hword.free c (List.mem_of_getElem? hc)] at hdelimiter
    cases hdelimiter
  · obtain rfl | ⟨front, last, rfl⟩ := List.eq_nil_or_concat before
    · exact .inl rfl
    · refine .inr ⟨last, by simp, hbefore last (by simp)⟩
  · cases after with
    | nil => exact .inl (by simp)
    | cons c rest =>
      refine .inr ⟨c, ?_, hafter c rfl⟩
      rw [List.getElem?_append_right (by simp), List.getElem?_append_right (by simp)]
      simp

/-- A text that begins with a delimiter does not begin with a word. -/
theorem lt_start_of_breaks {position : Nat} (h : Breaks delimiter text)
    (ha : a ∈ spansFrom delimiter position none text) : position < a.start := by
  obtain ⟨n, hn⟩ := List.mem_iff_getElem?.1 ha
  obtain ⟨before, word, after, rfl, rfl, -, hword, -, -⟩ := exists_of_spans hn
  have hpos : 0 < before.length := by
    by_contra hzero
    obtain rfl := List.length_eq_zero_iff.1 (Nat.eq_zero_of_not_pos hzero)
    exact hword.not_breaks_append after h
  change position < position + before.length
  omega

theorem pairwise_spansFrom (position : Nat) (text : List Char) :
    (spansFrom delimiter position none text).Pairwise fun a b => a.stop < b.start := by
  induction text using text_induction delimiter generalizing position with
  | nil => exact .nil
  | gap c rest hc ih =>
    rw [spansFrom_gap hc]
    exact ih (position + 1)
  | word word rest hword hrest ih =>
    rw [spansFrom_word hword hrest]
    exact List.pairwise_cons.2 ⟨fun b hb => lt_start_of_breaks hrest hb, ih _⟩

/-- Every character that is not a delimiter is in a word that the scan finds. -/
theorem exists_mem_spansFrom {c : Char} (hc : delimiter c = false) {text : List Char} {i : Nat}
    (hi : text[i]? = some c) (position : Nat) :
    ∃ a ∈ spansFrom delimiter position none text, a.Covers (position + i) := by
  induction text using text_induction delimiter generalizing position i with
  | nil => simp at hi
  | gap d rest hd ih =>
    rw [spansFrom_gap hd]
    cases i with
    | zero =>
      obtain rfl : d = c := by simpa using hi
      rw [hc] at hd
      cases hd
    | succ i =>
      obtain ⟨a, ha, hcovers⟩ := ih (by simpa using hi) (position + 1)
      exact ⟨a, ha, by rwa [Nat.add_assoc, Nat.add_comm 1] at hcovers⟩
  | word word rest hword hrest ih =>
    rw [spansFrom_word hword hrest]
    by_cases hlt : i < word.length
    · exact ⟨_, List.mem_cons_self, Nat.le_add_right _ _, Nat.add_lt_add_left hlt _⟩
    · rw [List.getElem?_append_right (by omega)] at hi
      obtain ⟨a, ha, hcovers⟩ := ih hi (position + word.length)
      rw [show position + word.length + (i - word.length) = position + i by omega] at hcovers
      exact ⟨a, List.mem_cons_of_mem _ ha, hcovers⟩

/-- The scan divides a text at its delimiters. -/
theorem segmentation_spansFrom (delimiter : Char → Bool) (text : List Char) :
    Segmentation delimiter text (spansFrom delimiter 0 none text) where
  nonempty a ha := (isSegment_of_mem_spansFrom ha).nonempty
  within a ha := (isSegment_of_mem_spansFrom ha).within
  separated := by
    refine List.isChain_iff_getElem.2 fun i hi => ?_
    have hlt := List.isChain_iff_getElem.1 (pairwise_spansFrom 0 text).isChain i hi
    have hfirst := isSegment_of_mem_spansFrom (List.getElem_mem (Nat.lt_of_succ_lt hi))
    have hsecond := isSegment_of_mem_spansFrom (List.getElem_mem hi)
    -- The text does not end with the first of the two, so a delimiter follows it.
    obtain hend | hdelimiter := hfirst.closed
    · have hbounds := hsecond.nonempty
      have hwithin := hsecond.within
      omega
    · exact ⟨_, Nat.le_refl _, hlt, hdelimiter⟩
  covered i c hi := by
    constructor
    · rintro ⟨a, ha, hcovers⟩
      by_contra hdelimiter
      exact (isSegment_of_mem_spansFrom ha).free i hcovers ⟨c, hi, by simpa using hdelimiter⟩
    · intro hc
      simpa using exists_mem_spansFrom hc hi 0
  opened a ha := (isSegment_of_mem_spansFrom ha).opened
  closed a ha := (isSegment_of_mem_spansFrom ha).closed

/-- **The words of a line are its longest segments without delimiters**, whatever characters
are delimiters, none of them included.  The spans of the words divide the line at its
delimiters: none is empty, each ends within the line, and before the next begins, with a
delimiter between the two; a character of the line is in one of them just in case it is not a
delimiter; and next to each of them stand delimiters, or the line ends there.  No other list of
spans is like this.  The spans are those of all the segments that cannot be made longer. -/
theorem spans_segmentation (delimiters line : String) :
    Segmentation (isDelimiter delimiters) line.toList (spans delimiters line) ∧
    (∀ others, Segmentation (isDelimiter delimiters) line.toList others →
      others = spans delimiters line) ∧
    ∀ a, a ∈ spans delimiters line ↔ IsSegment (isDelimiter delimiters) line.toList a := by
  have h := segmentation_spansFrom (isDelimiter delimiters) line.toList
  exact ⟨h, fun others hothers => hothers.unique h, fun a => h.mem_iff⟩

example : spans " ," ", ab,,c" = [⟨2, 4⟩, ⟨6, 7⟩] ∧ spans "" "a b" = [⟨0, 3⟩] := by decide

end CommandShell
