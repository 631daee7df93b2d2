import CommandShell.Proofs.Help.Routes
import CommandShell.Proofs.Line.Fields
import CommandShell.Settings.Schema
import Mathlib.Data.List.DropRight

/-!
# The rows of the help

The help is made in two passes: the first measures the longest usage below a command, the
second prints a row for each command that it meets.  Both go over the same routes in the same
order.  So there is one row for every route, the column of the descriptions leaves a gap
behind the longest usage, and what stands in front of the gap begins with the words of the
route: typed again, they lead to the command that the row is about.
-/

namespace CommandShell

/-! ## The layout of a row -/

/-- A text filled up with spaces to a width. -/
def leftJustified (width : Nat) (text : String) : String :=
  text ++ spaces (width - text.length : Nat)

/-- A row whose usage leaves room before the column needs no space of its own. -/
theorem helpRow_eq {indent : String} {column : Nat} {face : Face}
    (h : (face.keyword ++ face.argHints).length + 1 ≤ column) :
    helpRow indent column face =
      Text.stripRight (indent ++ leftJustified column (face.keyword ++ face.argHints)
        ++ face.description) ++ "\n" := by
  have hpad : max ((column : Int) - (face.keyword ++ face.argHints).length) 1 =
      ((column - (face.keyword ++ face.argHints).length : Nat) : Int) := by
    omega
  simp only [helpRow, hpad, leftJustified, String.append_assoc]

theorem pathBelow_eq {path : String} {face : Face} (h : face.keyword ≠ "") :
    pathBelow path face = path ++ (face.keyword ++ " ") := by
  simp [pathBelow, h, String.append_assoc]

namespace Store

variable {s : Store} {c root : CommandId}

/-- The number of characters that the usage of a command takes. -/
def usageLength (s : Store) (c : CommandId) : Nat :=
  (s.keyword c).length + (s.command c).argHints.length

/-- Two more than the longest usage on any route. -/
def helpColumn (s : Store) (root : CommandId) : Nat :=
  2 + ((s.routes root).map fun route => s.usageLength route.2).foldl max 0

/-- The row for a route of `n` words: `n - 1` levels of indentation, the words but the last,
the usage of the command up to the column, and its description. -/
def routeRow (s : Store) (column : Nat) (route : List String × CommandId) : String :=
  Text.stripRight
    (spaces (4 * (route.1.length - 1) : Nat) ++ String.join (route.1.dropLast.map (· ++ " "))
      ++ leftJustified column (s.keyword route.2 ++ (s.command route.2).argHints)
      ++ (s.command route.2).description)

/-! ## The two passes -/

/-- The first pass measures the commands on all routes, in order. -/
theorem Grounded.longest_eq_foldl (h : s.Grounded c) (w : Widths) :
    s.longest c w = (s.routes c).foldl
      (fun w route => w.max (Widths.ofFace (s.command route.2).toFace)) w := by
  induction h generalizing w with
  | intro c hacc ih =>
    have hground : s.Grounded c := ⟨c, hacc⟩
    rw [hground.longest_eq, hground.routes_eq, List.foldl_flatMap]
    refine List.foldl_ext _ _ w fun w d hd => ?_
    rw [List.foldl_cons, List.foldl_map, ih d hd]

theorem usage_foldl_max (faces : List Face) (w : Widths) {n : Nat} (hn : w.usage = n) :
    (faces.foldl (fun w face => w.max (Widths.ofFace face)) w).usage =
      ((faces.map fun face => face.keyword.length + face.argHints.length).foldl max n : Nat) := by
  induction faces generalizing w n with
  | nil => exact hn
  | cons face rest ih =>
    rw [List.foldl_cons, List.map_cons, List.foldl_cons]
    apply ih
    simp only [Widths.max, Widths.ofFace, hn]
    omega

/-- What the first pass measures is where the second pass puts the descriptions. -/
theorem Grounded.usage_longest (h : s.Grounded root) :
    (s.longest root).usage + helpGutter = s.helpColumn root := by
  have husage := usage_foldl_max ((s.routes root).map fun route => (s.command route.2).toFace) {}
    (n := 0) rfl
  rw [List.foldl_map, ← h.longest_eq_foldl, List.map_map] at husage
  rw [husage, helpColumn, helpGutter]
  simp only [Function.comp_def, usageLength, keyword]
  omega

/-- The second pass prints a row for every route, in order. -/
theorem Grounded.helpRows_eq_map (h : s.Grounded c) (hnamed : s.WellNamed c) (depth : Nat)
    (column : Int) (path : String) :
    s.helpRows c depth (some column) path = (s.routes c).map fun route =>
      helpRow (spaces (4 * (depth + (route.1.length - 1)) : Nat)
        ++ (pathBelow path (s.command c).toFace
          ++ String.join (route.1.dropLast.map (· ++ " ")))) column (s.command route.2).toFace := by
  induction h generalizing depth path with
  | intro c hacc ih =>
    have hground : s.Grounded c := ⟨c, hacc⟩
    rw [hground.helpRows_eq, hground.routes_eq, List.map_flatMap]
    refine List.flatMap_congr fun d hd => ?_
    have hkeyword : (s.command d).keyword ≠ "" := (hnamed c .refl).1 d hd
    rw [List.map_cons, List.map_map]
    refine congrArg₂ List.cons ?_ ?_
    · simp [helpIndent]
    · rw [show (depth : Int) + 1 = ((depth + 1 : Nat) : Int) by omega,
        ih d hd (hnamed.of_parent hd)]
      refine List.map_congr_left fun route hroute => ?_
      -- The words below `d` are not empty, so its keyword is not the last of the longer route.
      have hne : route.1 ≠ [] :=
        ((Grounded.mem_routes (hacc d hd) (hnamed.of_parent hd)).1 hroute).1
      have hlength := List.length_pos_iff.2 hne
      have hindent : depth + 1 + (route.1.length - 1) = depth + route.1.length := by omega
      rw [pathBelow_eq hkeyword, hindent, Function.comp_apply, List.length_cons,
        Nat.add_sub_cancel, List.dropLast_cons_of_ne_nil hne, List.map_cons, String.join_cons,
        keyword]
      simp only [String.append_assoc]

end Store

/-! ## The words of a row -/

/-- What does not end with a blank stays whole when blanks are stripped behind it. -/
theorem rdropWhile_append {p : Char → Bool} {front : List Char} (hne : front ≠ [])
    (hlast : p (front.getLast hne) = false) (back : List Char) :
    (front ++ back).rdropWhile p = front ++ back.rdropWhile p := by
  induction back using List.reverseRecOn with
  | nil =>
    rw [List.rdropWhile_nil, List.append_nil, List.rdropWhile_eq_self_iff]
    intro _
    simp [hlast]
  | append_singleton back c ih =>
    rw [← List.append_assoc, List.rdropWhile_concat, List.rdropWhile_concat]
    split
    · exact ih
    · rw [List.append_assoc]

theorem toList_stripRight (text : String) :
    (Text.stripRight text).toList = text.toList.rdropWhile Text.isBlank := by
  rw [Text.stripRight, String.toList_ofList]
  rfl

theorem Breaks.of_prefix {delimiter : Char → Bool} {first text : List Char}
    (h : Breaks delimiter text) (hfirst : first <+: text) : Breaks delimiter first := by
  obtain ⟨rest, rfl⟩ := hfirst
  exact (breaks_append.1 h).1

section

variable {delimiter : Char → Bool} {gap : Char} (hgap : delimiter gap = true)

include hgap

theorem fields_replicate (k : Nat) (rest : List Char) :
    fields delimiter (List.replicate k gap ++ rest) = fields delimiter rest := by
  induction k with
  | zero => rfl
  | succ k ih => rw [List.replicate_succ, List.cons_append, fields_gap hgap, ih]

/-- Words with a gap after each of them are read one by one. -/
theorem fields_flatMap {words : List (List Char)} (hwords : ∀ word ∈ words, IsWord delimiter word)
    (rest : List Char) :
    fields delimiter (words.flatMap (· ++ [gap]) ++ rest) = words ++ fields delimiter rest := by
  induction words with
  | nil => rfl
  | cons word words ih =>
    have hword := hwords word (by simp)
    have hbreaks : Breaks delimiter (gap :: (words.flatMap (· ++ [gap]) ++ rest)) := by
      simpa [Breaks] using hgap
    simp only [List.flatMap_cons, List.append_assoc, List.cons_append, List.nil_append]
    rw [fields_word hword hbreaks, fields_gap hgap, ih fun w hw => hwords w (by simp [hw])]

end

/-- The keyword is there, and nothing in it is blank. -/
structure Unblank (keyword : String) : Prop where
  ne_empty : keyword ≠ ""
  free : ∀ c ∈ keyword.toList, Text.isBlank c = false

theorem Unblank.isWord {keyword : String} (h : Unblank keyword) :
    IsWord (isDelimiter Schema.defaultDelimiters) keyword.toList := by
  refine ⟨by simpa using h.ne_empty, fun c hc => ?_⟩
  have hblank := h.free c hc
  have hall : ∀ d ∈ Schema.defaultDelimiters.toList, Text.isBlank d = true :=
    List.all_eq_true.1 (by decide)
  rw [isDelimiter, ← Bool.not_eq_true, List.contains_iff_mem]
  intro hmem
  rw [hall c hmem] at hblank
  cases hblank

namespace Store

open Relation

variable {s : Store} {c root : CommandId}

/-- The characters of a row.  Blanks are stripped only behind its last word. -/
theorem toList_routeRow {column : Nat} {front : List String} (hkeyword : Unblank (s.keyword c)) :
    (s.routeRow column (front ++ [s.keyword c], c)).toList =
      List.replicate (4 * front.length) ' ' ++ ((front.map String.toList).flatMap (· ++ [' ']) ++
        ((s.keyword c).toList ++ ((s.command c).argHints.toList ++
          (List.replicate (column - s.usageLength c) ' ' ++
            (s.command c).description.toList)).rdropWhile Text.isBlank)) := by
  have hne : (s.keyword c).toList ≠ [] := hkeyword.isWord.ne_nil
  have hlast : ∀ before : List Char, Text.isBlank
      ((before ++ (s.keyword c).toList).getLast (by simp [hne])) = false := by
    intro before
    rw [List.getLast_append_of_ne_nil _ hne]
    exact hkeyword.free _ (List.getLast_mem hne)
  have hsplit := rdropWhile_append _ (hlast (List.replicate (4 * front.length) ' '
    ++ (front.map String.toList).flatMap (· ++ [' '])))
  simp only [List.append_assoc] at hsplit
  rw [routeRow, toList_stripRight, ← hsplit]
  have hindent : (4 * (front.length : Int)).toNat = 4 * front.length := by omega
  refine congrArg (List.rdropWhile _) ?_
  simp [leftJustified, spaces, usageLength, String.toList_join, List.flatMap_map, keyword, hindent]

/-- A row begins with the words of its route. -/
theorem take_wordsOf_routeRow {column : Nat} {front : List String}
    (hfront : ∀ word ∈ front, Unblank word) (hkeyword : Unblank (s.keyword c))
    (hhints : Breaks (isDelimiter Schema.defaultDelimiters) (s.command c).argHints.toList)
    (hcolumn : s.usageLength c < column) :
    (wordsOf Schema.defaultDelimiters (s.routeRow column (front ++ [s.keyword c], c))).take
      (front.length + 1) = front ++ [s.keyword c] := by
  have hspace : isDelimiter Schema.defaultDelimiters ' ' = true := by decide
  have hwords : ∀ word ∈ front.map String.toList,
      IsWord (isDelimiter Schema.defaultDelimiters) word := by
    intro word hword
    obtain ⟨text, htext, rfl⟩ := List.mem_map.1 hword
    exact (hfront text htext).isWord
  have hbreaks : Breaks (isDelimiter Schema.defaultDelimiters) ((s.command c).argHints.toList ++
      (List.replicate (column - s.usageLength c) ' ' ++ (s.command c).description.toList)) := by
    refine breaks_append.2 ⟨hhints, fun _ => ?_⟩
    rw [show column - s.usageLength c = column - s.usageLength c - 1 + 1 by omega,
      List.replicate_succ, List.cons_append]
    simpa [Breaks] using hspace
  rw [wordsOf_eq, toList_routeRow hkeyword, fields_replicate hspace, fields_flatMap hspace hwords,
    fields_word hkeyword.isWord (hbreaks.of_prefix (List.rdropWhile_prefix _ _)), List.map_append,
    List.map_map, List.map_cons, String.ofList_toList]
  simp [Function.comp_def, List.take_append]

/-! ## The help -/

theorem Walk.exists_eq_concat {d : CommandId} {words : List String} {path : List CommandId}
    (h : s.Walk c words path d) (hne : words ≠ []) : ∃ front, words = front ++ [s.keyword d] := by
  obtain ⟨front, word, rfl⟩ := (List.eq_nil_or_concat' words).resolve_left hne
  obtain ⟨-, parent, -, -, hfind⟩ := h.of_concat
  exact ⟨front, by rw [(find_eq_some hfind).2]⟩

/-- The words of a walk are keywords of commands that it goes down to. -/
theorem Walk.exists_keyword {d : CommandId} {words : List String} {path : List CommandId}
    (h : s.Walk c words path d) {word : String} (hword : word ∈ words) :
    ∃ e, TransGen s.Parent c e ∧ s.keyword e = word := by
  induction h with
  | nil c => simp at hword
  | @cons c d e first words path hfind hrest ih =>
    obtain ⟨hcd, hkeyword⟩ := find_eq_some hfind
    rcases List.mem_cons.1 hword with rfl | hword
    · exact ⟨d, .single hcd, hkeyword⟩
    · obtain ⟨e, hde, he⟩ := ih hword
      exact ⟨e, hde.head hcd, he⟩

theorem le_foldl_max {ns : List Nat} {m n : Nat} (h : n ≤ m ∨ n ∈ ns) : n ≤ ns.foldl max m := by
  induction ns generalizing m with
  | nil => simpa using h
  | cons k ns ih =>
    apply ih
    rcases h with h | h
    · exact .inl (by omega)
    · rcases List.mem_cons.1 h with rfl | h
      · exact .inl (by omega)
      · exact .inr h

/-- The gap before the column is at least two wide. -/
theorem usageLength_add_two_le {route : List String × CommandId} (h : route ∈ s.routes root) :
    s.usageLength route.2 + 2 ≤ s.helpColumn root := by
  have hle : s.usageLength route.2 ≤
      ((s.routes root).map fun route => s.usageLength route.2).foldl max 0 :=
    le_foldl_max (.inr (List.mem_map.2 ⟨route, h, rfl⟩))
  rw [helpColumn]
  omega

/-- Below a command without a keyword, the help is a row for each route. -/
theorem Grounded.renderHelp_eq (h : s.Grounded root) (hnamed : s.WellNamed root)
    (hroot : s.keyword root = "") :
    s.renderHelp root "" =
      String.join
        ((s.routes root).map fun route => s.routeRow (s.helpColumn root) route ++ "\n") := by
  have hmeasured : s.helpRows root 0 none "" =
      s.helpRows root (0 : Nat) (some (s.helpColumn root)) "" := by
    rw [← h.usage_longest]
    rfl
  rw [renderHelp, hmeasured, h.helpRows_eq_map hnamed, String.empty_append]
  refine congrArg String.join (List.map_congr_left fun route hroute => ?_)
  have hpath : pathBelow "" (s.command root).toFace = "" := by
    rw [pathBelow, if_pos]
    rw [keyword] at hroot
    rw [hroot]
    rfl
  have hgap := usageLength_add_two_le hroute
  rw [helpRow_eq, hpath, routeRow]
  · simp only [Nat.zero_add, String.empty_append, String.append_assoc]
    rfl
  · rw [usageLength, keyword] at hgap
    rw [String.length_append]
    omega

/-- **The help, row by row.**  Below a root without a keyword, in a tree in which no command
stands below itself and the sub-commands of each have different keywords, the help has
exactly one row for every walk of one or more words from the root.  The rows stand in the
order in which one meets the walks, going down first and then on to the command that was
registered next.  All descriptions start in the same column, two or more places behind the
usage.  Read as a line, a row begins with the words of its walk, and these lead to the
command that the row is about, provided that keywords hold no blanks and a delimiter stands
between a keyword and its hints. -/
theorem renderHelp_routes {root : CommandId}
    (hacyclic : ∀ c, ReflTransGen s.Parent root c → ¬ TransGen s.Parent c c)
    (hnamed : s.WellNamed root) (hroot : s.keyword root = "") :
    s.renderHelp root "" = String.join
      ((s.routes root).map fun route => s.routeRow (s.helpColumn root) route ++ "\n") ∧
    (∀ words c, (words, c) ∈ s.routes root ↔ words ≠ [] ∧ ∃ path, s.Walk root words path c) ∧
    ((s.routes root).map Prod.fst).Nodup ∧
    (s.routes root).Pairwise (fun first second => s.Before root first.1 second.1) ∧
    (∀ route ∈ s.routes root, s.usageLength route.2 + 2 ≤ s.helpColumn root) ∧
    ((∀ c, TransGen s.Parent root c → (∀ ch ∈ (s.keyword c).toList, Text.isBlank ch = false) ∧
        Breaks (isDelimiter Schema.defaultDelimiters) (s.command c).argHints.toList) →
      ∀ words c, (words, c) ∈ s.routes root →
        (wordsOf Schema.defaultDelimiters (s.routeRow (s.helpColumn root) (words, c))).take
          words.length = words ∧
        ∃ path, path.length = words.length ∧ (s.descend root words).value = path ++ [c]) := by
  have hground := grounded_iff.2 hacyclic
  refine ⟨hground.renderHelp_eq hnamed hroot, fun words c => hground.mem_routes hnamed,
    hground.nodup_routes hnamed, hground.pairwise_routes hnamed,
    fun route => usageLength_add_two_le, ?_⟩
  intro hplain words c hroute
  obtain ⟨hne, path, hwalk⟩ := (hground.mem_routes hnamed).1 hroute
  have hunblank : ∀ word ∈ words, Unblank word := by
    intro word hword
    obtain ⟨d, hd, rfl⟩ := hwalk.exists_keyword hword
    obtain ⟨e, he, hed⟩ := TransGen.tail'_iff.1 hd
    exact ⟨(hnamed e he).1 d hed, (hplain d hd).1⟩
  refine ⟨?_, path, hwalk.length_eq, hwalk.descend_eq⟩
  have hbelow : TransGen s.Parent root c := by
    cases hwalk with
    | nil => exact absurd rfl hne
    | cons hfind hrest => exact .head' (find_eq_some hfind).1 hrest.descends
  obtain ⟨front, rfl⟩ := hwalk.exists_eq_concat hne
  have hcolumn := usageLength_add_two_le hroute
  rw [List.length_append, List.length_singleton]
  apply take_wordsOf_routeRow
  · exact fun word hword => hunblank word (by simp [hword])
  · exact hunblank _ (by simp)
  · exact (hplain c hbelow).2
  · dsimp only at hcolumn
    omega

/-- A command `log` with one sub-command, and an alias `l` that borrows it. -/
def borrowedLog : Store where
  commands :=
    [{ children := some (.owned ⟨0⟩) },
      { keyword := "log", argHints := " <cmd>", description := "log options",
        children := some (.owned ⟨1⟩) },
      { keyword := "level", argHints := " <0..5>", description := "the level" },
      { keyword := "l", description := "the same", children := some (.borrowed ⟨1⟩) }]
  registries := [{ items := [⟨1⟩, ⟨3⟩] }, { items := [⟨2⟩] }]

theorem grounded_borrowedLog : borrowedLog.Grounded ⟨0⟩ := by
  have hleaf : borrowedLog.Grounded ⟨2⟩ := Acc.intro _ fun d hd => by cases hd
  refine Acc.intro _ fun d hd => Acc.intro _ fun e he => ?_
  have hall : ∀ d ∈ borrowedLog.subcommands ⟨0⟩, ∀ e ∈ borrowedLog.subcommands d, e = ⟨2⟩ := by
    decide
  rw [hall d hd e he]
  exact hleaf

theorem wellNamed_borrowedLog : borrowedLog.WellNamed ⟨0⟩ :=
  wellNamed_of_registries _ (by decide)

/-- The sub-command has a row below `log` and another one below the alias. -/
theorem borrowedLog_rows :
    (∀ c, ReflTransGen borrowedLog.Parent ⟨0⟩ c → ¬ TransGen borrowedLog.Parent c c) ∧
    borrowedLog.WellNamed ⟨0⟩ ∧ borrowedLog.keyword ⟨0⟩ = "" ∧
    borrowedLog.renderHelp ⟨0⟩ "" =
      "log <cmd>     log options\n    log level <0..5>  the level\nl             the same\n" ++
        "    l level <0..5>  the level\n" ∧
    (wordsOf Schema.defaultDelimiters (borrowedLog.routeRow 14 (["l", "level"], ⟨2⟩))).take 2 =
      ["l", "level"] := by
  have hacyclic := grounded_iff.1 grounded_borrowedLog
  have hhelp := renderHelp_routes hacyclic wellNamed_borrowedLog rfl
  obtain ⟨htext, -, -, -, -, hwords⟩ := hhelp
  refine ⟨hacyclic, wellNamed_borrowedLog, rfl, ?_, ?_⟩
  · rw [htext]
    decide +kernel
  · refine (hwords ?_ ["l", "level"] ⟨2⟩ (by decide)).1
    -- Decided on the characters of a word: those in general are far too many.
    have hfree : ∀ word : String, word.toList.any Text.isBlank = false →
        ∀ ch ∈ word.toList, Text.isBlank ch = false := fun word h => by simpa using h
    rintro ⟨_ | _ | _ | _ | n⟩ -
    iterate 4 exact ⟨hfree _ (by decide), (Option.all_eq_true ..).1 (by decide)⟩
    simp [keyword, command, borrowedLog, Command.missing, Breaks]

end Store

end CommandShell
