import CommandShell.Proofs.Line.Fields
import CommandShell.Script
import Mathlib.Data.List.DropRight

/-!
# Lines and the line feeds that end them

The lines of a script keep the line feed that ends them.  Where the line feed is a delimiter
it is nothing but a gap behind the last word, so a line has the same words with it and
without it.  The last line of a file may lack it; if one is appended to the file, the lines
without their ends stay what they are, or an empty one is added.
-/

namespace CommandShell

/-! ## The words of a line -/

theorem fields_eq_nil {delimiter : Char → Bool} {text : List Char}
    (h : ∀ c ∈ text, delimiter c = true) : fields delimiter text = [] := by
  induction text with
  | nil => rfl
  | cons c rest ih =>
    rw [fields_gap (h c (by simp)), ih fun d hd => h d (by simp [hd])]

theorem toList_bare (line : String) :
    (Text.bare line).toList = line.toList.rdropWhile (· = '\n') := by
  rw [Text.bare, String.toList_ofList, List.rdropWhile]

theorem wordsOf_bare {delimiters : String} (h : isDelimiter delimiters '\n' = true)
    (line : String) : wordsOf delimiters (Text.bare line) = wordsOf delimiters line := by
  have hends : ∀ c ∈ line.toList.rtakeWhile (· = '\n'), isDelimiter delimiters c = true := by
    intro c hc
    have hc' : c = '\n' := by
      rw [List.rtakeWhile, List.mem_reverse] at hc
      simpa using List.mem_takeWhile_imp hc
    rw [hc', h]
  have hbreaks : Breaks (isDelimiter delimiters) (line.toList.rtakeWhile (· = '\n')) := by
    intro c hc
    exact hends c (List.mem_of_mem_head? hc)
  have hsplit : line.toList.rdropWhile (· = '\n') ++ line.toList.rtakeWhile (· = '\n') =
      line.toList := List.rdropWhile_append_rtakeWhile
  rw [wordsOf_eq, wordsOf_eq, toList_bare]
  generalize line.toList.rdropWhile (· = '\n') = front at hsplit ⊢
  generalize line.toList.rtakeWhile (· = '\n') = ends at hends hbreaks hsplit
  rw [← hsplit, fields_append (.inr hbreaks), fields_eq_nil hends, List.append_nil]

/-- Where the line feed is a delimiter, a line has the same words without those at its end,
and the same is said about them. -/
theorem tokenize_bare {rules : LineRules} (h : isDelimiter rules.delimiters '\n' = true)
    (line : String) : rules.tokenize (Text.bare line) = rules.tokenize line := by
  simp only [LineRules.tokenize, LineRules.split, wordsOf_bare h]

/-! ## One more line feed -/

namespace Text

/-- No octet below 128 continues a character. -/
theorem le_low_of_lead? {b : UInt8} {lead : Lead} (h : lead? b = some lead) : 0x80 ≤ lead.low := by
  simp only [lead?] at h
  grind

/-- A line feed never belongs to a longer character: what is open before it is broken off. -/
theorem readings_concat (octets : List UInt8) {bits owed low high : Nat} (hlow : 10 < low) :
    readings bits owed low high (octets ++ [10]) =
      readings bits owed low high octets ++ [some '\n'] := by
  induction octets generalizing bits owed low high with
  | nil =>
    cases owed with
    | zero => rfl
    | succ k =>
      have hout : ¬ (low ≤ (10 : UInt8).toNat ∧ (10 : UInt8).toNat ≤ high) := by
        intro h
        have : (10 : UInt8).toNat = 10 := rfl
        omega
      simp only [List.nil_append, readings, if_neg hout]
      rfl
  | cons b rest ih =>
    have hstart : readings 0 0 0x80 0xBF (rest ++ [10]) =
        readings 0 0 0x80 0xBF rest ++ [some '\n'] := ih (by omega)
    have hbegin : readings 0 0 0x80 0xBF (b :: (rest ++ [10])) =
        readings 0 0 0x80 0xBF (b :: rest) ++ [some '\n'] := by
      simp only [readings]
      cases hlead : lead? b with
      | none => simp [hstart]
      | some lead =>
        obtain ⟨n, owed, l, h⟩ := lead
        have hl := le_low_of_lead? hlead
        cases owed with
        | zero => simp [hstart]
        | succ k => exact ih (Nat.lt_of_lt_of_le (by omega) hl)
    cases owed with
    | zero => exact hbegin
    | succ k =>
      rw [List.cons_append, readings, readings]
      dsimp only
      split_ifs
      · simp [hstart]
      · exact ih (by omega)
      · exact congrArg (none :: ·) hbegin

theorem decodeLossy_concat (octets : List UInt8) :
    decodeLossy (octets ++ [10]) = decodeLossy octets ++ ['\n'] := by
  rw [decodeLossy, decodeLossy, readingsOf, readingsOf, readings_concat octets (by omega),
    List.map_append]
  rfl

/-- A line feed behind a carriage return is one with it. -/
theorem unifyEnds_concat (cs : List Char) :
    unifyEnds (cs ++ ['\n']) = unifyEnds cs ∨
      unifyEnds (cs ++ ['\n']) = unifyEnds cs ++ ['\n'] := by
  fun_induction unifyEnds cs with
  | case1 => exact .inr rfl
  | case2 rest ih =>
    rw [List.cons_append, List.cons_append, unifyEnds]
    rcases ih with ih | ih
    · exact .inl (by rw [ih])
    · exact .inr (by rw [ih, List.cons_append])
  | case3 c rest h ih =>
    by_cases hlone : c = '\r' ∧ rest = []
    · obtain ⟨rfl, rfl⟩ := hlone
      exact .inl rfl
    · have hstep : unifyEnds (c :: (rest ++ ['\n'])) =
          (if c = '\r' then '\n' else c) :: unifyEnds (rest ++ ['\n']) := by
        rw [unifyEnds]
        rintro tail rfl htail
        cases rest with
        | nil => exact hlone ⟨rfl, rfl⟩
        | cons d rest =>
          cases htail
          exact h rest rfl rfl
      rw [List.cons_append, hstep]
      rcases ih with ih | ih
      · exact .inl (by rw [ih])
      · exact .inr (by rw [ih, List.cons_append])

theorem bare_lineText_concat (line : List UInt8) :
    bare (lineText (line ++ [10])) = bare (lineText line) := by
  rw [← String.toList_inj, toList_bare, toList_bare, lineText, lineText, String.toList_ofList,
    String.toList_ofList, decodeLossy_concat]
  rcases unifyEnds_concat (decodeLossy line) with h | h
  · rw [h]
  · rw [h, List.rdropWhile_concat_pos _ _ _ (by decide)]

theorem splitLines_ne_nil {octets : List UInt8} (h : octets ≠ []) : splitLines octets ≠ [] := by
  intro hnil
  have hflatten := flatten_splitLines octets
  rw [hnil] at hflatten
  exact h hflatten.symm

/-- A line feed at the end of a file is a line of its own, or ends the last line. -/
theorem splitLines_concat (octets : List UInt8) :
    splitLines (octets ++ [10]) = splitLines octets ++ [[10]] ∨
      ∃ front last, splitLines octets = front ++ [last] ∧
        splitLines (octets ++ [10]) = front ++ [last ++ [10]] := by
  induction octets with
  | nil => exact .inl rfl
  | cons b rest ih =>
    by_cases hrest : rest = []
    · subst hrest
      by_cases hb : b = 10
      · subst hb
        exact .inl rfl
      · refine .inr ⟨[], [b], ?_, ?_⟩
        · simp [splitLines]
        · simp [splitLines, endsLine, hb]
    · have hends : endsLine b (rest ++ [10]) = endsLine b rest := by
        rw [endsLine, endsLine, List.head?_append_of_ne_nil rest hrest]
      obtain ⟨line, lines, hcons⟩ := List.exists_cons_of_ne_nil (splitLines_ne_nil hrest)
      rw [List.cons_append, splitLines, splitLines, hends]
      split_ifs
      · rcases ih with ih | ⟨front, last, hlines, ih⟩
        · exact .inl (by rw [ih]; rfl)
        · exact .inr ⟨[b] :: front, last, by rw [hlines]; rfl, by rw [ih]; rfl⟩
      · rcases ih with ih | ⟨front, last, hlines, ih⟩
        · rw [ih, hcons]
          exact .inl rfl
        · rw [ih, hlines]
          cases front with
          | nil => exact .inr ⟨[], b :: last, rfl, rfl⟩
          | cons first front => exact .inr ⟨(b :: first) :: front, last, rfl, rfl⟩

end Text

/-- The lines of a file, without the line feeds that end them. -/
def bareLines (octets : List UInt8) : List String := (scriptLines octets).map Text.bare

/-- With a line feed appended to a file, its lines are the same, or an empty one is added. -/
theorem bareLines_concat (octets : List UInt8) :
    bareLines (octets ++ [10]) = bareLines octets ∨
      bareLines (octets ++ [10]) = bareLines octets ++ [""] := by
  rw [bareLines, bareLines, scriptLines, scriptLines]
  rcases Text.splitLines_concat octets with h | ⟨front, last, hlines, h⟩
  · right
    rw [h, List.map_append, List.map_append]
    rfl
  · left
    rw [h, hlines]
    simp only [List.map_append, List.map_cons, List.map_nil, Text.bare_lineText_concat]

end CommandShell
